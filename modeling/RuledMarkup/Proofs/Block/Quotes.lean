import Mathlib.Data.List.ReduceOption
import RuledMarkup.Code.Fence
import RuledMarkup.Proofs.Block.Markup
import RuledMarkup.Proofs.Inline.RoundTrip
import RuledMarkup.Proofs.Parse.Restyle
import RuledMarkup.Proofs.Parse.States
import RuledMarkup.Proofs.Parse.Tiling

/-!
# Quotes do not nest

The node of a quote looks like any other node with styles, so the forest alone does not show which
nodes the rule for quotes has made.  But a parse does not look at styles: if a mark is put among
those of the rule for quotes, then the same forest is found, with a mark on each node of that rule.
Below a marked node the state says that it is inside a quote, and all other rules hand the state
down as they have been given it.

## Main definitions

* `Forest.Unmarked`, `Forest.MarksApart` : forests without marks, and without marks below marks.
* `Rule.KeepsState` : a rule that hands down the state that it is given.
* `Block.Companion` : the rules that may stand beside the one for quotes.
* `Block.markedRules` : the rules of a document, with marks for quotes.

## Main results

* `Block.Companion.keepsState` : the other rules keep the state.
* `Block.makes_markedRules` : what one match does to states and marks.
* `Block.marksApart_below` : marks are apart below every node of a parse.
* `Block.quotes_do_not_nest` : no node of the rule for quotes is below another one.
-/

namespace RuledMarkup

variable {R T S : Type}

/-! ### Marks -/

/-- Is there a mark among the styles?  A mark stands where a style is missing. -/
def Kind.isMarked : Kind R (Option T) → Bool
  | .style styles => styles.any (·.isNone)
  | _ => false

/-- Is there a mark among the styles of the node? -/
def Node.isMarked (node : Node R (Option T)) : Bool := node.kind.isMarked

namespace Forest

/-- No node of the forest is marked, at any depth. -/
def Unmarked (forest : List (Node R (Option T))) : Prop :=
  ∀ node ∈ preOrder forest, node.isMarked = false

/-- No marked node of the forest has a marked node below it, at any depth. -/
def MarksApart (forest : List (Node R (Option T))) : Prop :=
  ∀ node ∈ preOrder forest, node.isMarked = true → Unmarked node.children

theorem unmarked_append {a b : List (Node R (Option T))} :
    Unmarked (a ++ b) ↔ Unmarked a ∧ Unmarked b := by
  simp only [Unmarked, preOrder_append, List.forall_mem_append]

theorem marksApart_append {a b : List (Node R (Option T))} :
    MarksApart (a ++ b) ↔ MarksApart a ∧ MarksApart b := by
  simp only [MarksApart, preOrder_append, List.forall_mem_append]

/-- A forest is unmarked if its roots are and what is below them. -/
theorem unmarked_iff {forest : List (Node R (Option T))} :
    Unmarked forest ↔ ∀ top ∈ forest, top.isMarked = false ∧ Unmarked top.children :=
  forall_mem_preOrder_iff

theorem marksApart_iff {forest : List (Node R (Option T))} :
    MarksApart forest ↔
      ∀ top ∈ forest, (top.isMarked = true → Unmarked top.children) ∧ MarksApart top.children :=
  forall_mem_preOrder_iff

theorem Unmarked.marksApart {forest : List (Node R (Option T))} (h : Unmarked forest) :
    MarksApart forest := fun node hnode hmarked => by
  rw [h node hnode] at hmarked
  cases hmarked

/-- What is put below the nodes of a forest without marks is all there is to mind. -/
theorem Unmarked.addChildren {root : Node R (Option T)} {below : List (Node R (Option T))}
    (h : Unmarked [root]) (hbelow : Unmarked below) :
    (root.addChildren below).isMarked = false ∧ Unmarked (root.addChildren below).children := by
  obtain ⟨hroot, hchildren⟩ := unmarked_iff.1 h root List.mem_cons_self
  exact ⟨hroot, unmarked_append.2 ⟨hchildren, hbelow⟩⟩

theorem Unmarked.addChildren_marksApart {root : Node R (Option T)}
    {below : List (Node R (Option T))} (h : Unmarked [root]) (hbelow : MarksApart below) :
    ((root.addChildren below).isMarked = true → Unmarked (root.addChildren below).children) ∧
      MarksApart (root.addChildren below).children := by
  obtain ⟨hroot, hchildren⟩ := unmarked_iff.1 h root List.mem_cons_self
  refine ⟨fun hmarked => ?_, marksApart_append.2 ⟨hchildren.marksApart, hbelow⟩⟩
  cases hroot.symm.trans hmarked

end Forest

theorem Kind.isMarked_mapStyles_some (kind : Kind R T) :
    (kind.mapStyles (·.map some)).isMarked = false := by
  cases kind with
  | style styles => simp [mapStyles, isMarked]
  | _ => rfl

/-- Styles that are carried over bring no marks. -/
theorem Forest.unmarked_mapStyles_some (forest : List (Node R T)) :
    Unmarked (mapStyles (·.map some) forest) := by
  intro node hnode
  rw [preOrder_mapStyles] at hnode
  obtain ⟨node', -, rfl⟩ := List.mem_map.1 hnode
  rw [Node.isMarked, Node.kind_mapStyles, Kind.isMarked_mapStyles_some]

/-! ### States that rules hand down -/

/-- The rule hands down the state that it is given. -/
def Rule.KeepsState (rule : Rule R T S) : Prop :=
  ∀ ⦃captures state spec⦄, (rule.build captures state).value = .ok spec → spec.state = state

namespace Block

/-- The rules that may stand beside the one for quotes: those of inline markup and any others that
make text of their match or style its first group, those for headers, with or without classes, the
one for list items, and those for code. -/
inductive Companion [HasTextStyles T] : Rule R T S → Prop
  | inline {rule : Rule R T S} (h : rule ∈ Inline.rules) : Companion rule
  | newline : Companion Inline.newlineAnywhere
  | text (pattern : Pattern) : Companion (.text pattern)
  | style (pattern : Pattern) (styles : List T) : Companion (.style pattern styles)
  | header (styles : HeaderStyles T) : Companion (headerRule styles)
  | underlinedHeader (styles : HeaderStyles T) : Companion (underlinedHeaderRule styles)
  | classedHeader (styles : HeaderStyles T) (classStyle : String → Option T)
      (titleRules : List (Rule R T S)) : Companion (classedHeaderRule styles classStyle titleRules)
  | listItem (bullet : StyleProvider R T) : Companion (listItemRule bullet)
  | code (textStyles : StyleProvider R T) (languages : Code.Languages R T S)
      (wrapper : Code.Wrapper R T S) : Companion (Code.blockRule textStyles languages wrapper)
  | inlineCode (textStyles background : StyleProvider R T) :
      Companion (Code.inlineRule textStyles background)

theorem Companion.keepsState [HasTextStyles T] {rule : Rule R T S} (h : Companion rule) :
    rule.KeepsState := by
  intro captures state spec hbuilt
  cases h with
  | inline h =>
    simp only [Inline.rules, Inline.markupRules, List.mem_append, List.mem_cons, List.not_mem_nil,
      or_false] at h
    rcases h with (rfl | rfl | rfl | rfl | rfl | rfl) | rfl
    · obtain ⟨character, -, rfl⟩ := exists_of_map_eq_ok hbuilt
      rfl
    · rw [← Except.ok.inj hbuilt, Spec.terminal]
    · obtain ⟨span, -, rfl⟩ := exists_of_map_eq_ok hbuilt
      rfl
    · obtain ⟨span, -, rfl⟩ := exists_of_map_eq_ok hbuilt
      rfl
    · obtain ⟨span, rfl⟩ := Inline.exists_of_build_italicsRule hbuilt
      rfl
    · obtain ⟨span, -, rfl⟩ := exists_of_map_eq_ok hbuilt
      rfl
    · rw [← Except.ok.inj hbuilt, Spec.terminal]
  | newline => rw [← Except.ok.inj hbuilt, Spec.terminal]
  | text pattern => rw [← Except.ok.inj hbuilt, Spec.terminal]
  | style pattern styles =>
    obtain ⟨span, -, rfl⟩ := exists_of_map_eq_ok hbuilt
    rfl
  | header styles =>
    obtain ⟨signs, title, -, -, rfl⟩ := exists_of_build_headerRule hbuilt
    rfl
  | underlinedHeader styles =>
    obtain ⟨level, title, -, -, rfl⟩ := exists_of_build_underlinedHeaderRule hbuilt
    rfl
  | classedHeader styles classStyle titleRules =>
    simp only [classedHeaderRule, Rule.atLineStart] at hbuilt
    split at hbuilt
    · cases hbuilt
    · split at hbuilt
      · cases hbuilt
      · rw [← Except.ok.inj hbuilt, Spec.terminal]
  | listItem bullet =>
    obtain ⟨span, -, rfl⟩ := exists_of_map_eq_ok hbuilt
    rfl
  | code textStyles languages wrapper =>
    obtain ⟨code, -, rfl⟩ := exists_of_map_eq_ok hbuilt
    rfl
  | inlineCode textStyles background =>
    obtain ⟨body, -, rfl⟩ := exists_of_map_eq_ok hbuilt
    rfl

variable [QuoteState S]

/-! ### Marked quotes -/

/-- The rule with styles of which none is a mark. -/
def unmarkedRule (rule : Rule R T S) : Rule R (Option T) S := rule.mapStyles (·.map some)

/-- A list of rules with one for quotes among them, of which that one marks each of its nodes and
the others mark none of theirs. -/
def markedRules (before after : List (Rule R T S)) (styles : List T) :
    List (Rule R (Option T) S) :=
  before.map unmarkedRule ++ quoteRule (none :: styles.map some) :: after.map unmarkedRule

theorem mapStyles_quoteRule {U : Type} (f : List T → List U) (styles : List T) :
    (quoteRule styles : Rule R T S).mapStyles f = quoteRule (f styles) := by
  simp only [quoteRule, Rule.atLineStart, Rule.mapStyles, Rule.mk.injEq, true_and]
  funext captures state
  simp only [Logged.quiet, Logged.map]
  congr 1
  cases captures.range? 1 with
  | some span => rfl
  | none =>
    dsimp only
    cases captures.span 2 <;> rfl

omit [QuoteState S] in
theorem mapStyles_unmarkedRule (rule : Rule R T S) :
    (unmarkedRule rule).mapStyles List.reduceOption = rule := by
  have hid : List.reduceOption ∘ List.map some = (id : List T → List T) := by
    funext styles
    simp [List.reduceOption]
  rw [unmarkedRule, Rule.mapStyles_mapStyles, hid, Rule.mapStyles_id]

/-- Without the marks, the rules are those that they have been made of. -/
theorem mapStyles_markedRules (before after : List (Rule R T S)) (styles : List T) :
    (markedRules before after styles).map (Rule.mapStyles List.reduceOption) =
      before ++ quoteRule styles :: after := by
  have hrules : ∀ rules : List (Rule R T S),
      (rules.map unmarkedRule).map (Rule.mapStyles List.reduceOption) = rules := fun rules => by
    rw [List.map_map]
    exact List.map_id'' mapStyles_unmarkedRule rules
  rw [markedRules, List.map_append, List.map_cons, hrules, hrules, mapStyles_quoteRule]
  simp [List.reduceOption]

variable {before after : List (Rule R T S)} {styles : List T} {source : String} {state : S}

/-- A match with marked rules either keeps its state and brings no marks, or it is a quote outside
of quotes, whose node has nothing below it but what is parsed inside the quote. -/
theorem makes_markedRules (hrules : ∀ rule ∈ before ++ after, rule.KeepsState)
    {machine machine' : Machine R (Option T) S} {item : Match R (Option T) S}
    (h : machine.Makes (markedRules before after styles) source item machine') :
    item.spec.state = item.state ∧ Forest.Unmarked [item.spec.root] ∨
      QuoteState.inQuote item.state = false ∧ QuoteState.inQuote item.spec.state = true ∧
        item.spec.root.children = [] := by
  obtain ⟨rule, hfirst, -, hbuilt⟩ := exists_rule_of_buildFirst h.build_eq
  obtain ⟨hmem, hmatch⟩ := mem_of_matchFirst hfirst
  have hkeeps : ∀ {rules : List (Rule R T S)}, (∀ rule ∈ rules, rule.KeepsState) →
      rule ∈ rules.map unmarkedRule →
      item.spec.state = item.state ∧ Forest.Unmarked [item.spec.root] := by
    intro rules hrules hmem
    obtain ⟨plain, hplain, rfl⟩ := List.mem_map.1 hmem
    obtain ⟨spec, hspec, heq⟩ := exists_of_map_eq_ok hbuilt
    rw [← heq]
    exact ⟨hrules plain hplain hspec, Forest.unmarked_mapStyles_some [spec.root]⟩
  rw [List.forall_mem_append] at hrules
  rcases List.mem_append.1 hmem with hmem | hmem
  · exact .inl (hkeeps hrules.1 hmem)
  · rcases List.mem_cons.1 hmem with rfl | hmem
    · obtain ⟨span, -, hspec⟩ := exists_of_map_eq_ok hbuilt
      simp only [quoteRule, Rule.atLineStart] at hmatch
      split_ifs at hmatch with hline hquote
      rw [← hspec]
      exact .inr ⟨by simpa using hquote, QuoteState.inQuote_setInQuote true _, rfl⟩
    · exact .inl (hkeeps hrules.2 hmem)

/-- Under a node from which a state is handed down that is inside a quote nothing is marked, and
under every node the marks are apart. -/
theorem marksApart_below (hrules : ∀ rule ∈ before ++ after, rule.KeepsState)
    {found : List (Match R (Option T) S)} {machine : Machine R (Option T) S}
    (h : History (markedRules before after styles) source state found machine)
    {below : Nat → List (Node R (Option T))} (hbelow : Attached found below) {parent : Nat}
    {passed : S} (hpassed : stateUnder state found parent = some passed) :
    (QuoteState.inQuote passed = true → Forest.Unmarked (below parent)) ∧
      Forest.MarksApart (below parent) := by
  -- The induction goes from later nodes to earlier ones, to which the later ones are attached.
  induction hlater : machine.arena.count - parent using Nat.strongRecOn
    generalizing parent passed with
  | ind later ih =>
    have hnext : ∀ item ∈ matchesUnder found parent, item.state = passed ∧
        (item.spec.state = item.state ∧ Forest.Unmarked [item.spec.root] ∨
          QuoteState.inQuote item.state = false ∧ QuoteState.inQuote item.spec.state = true ∧
            item.spec.root.children = []) ∧
        (QuoteState.inQuote item.spec.state = true → Forest.Unmarked (below item.id)) ∧
        Forest.MarksApart (below item.id) := by
      intro item hitem
      obtain ⟨hmem, hparent⟩ := List.mem_filter.1 hitem
      obtain rfl := of_decide_eq_true hparent
      obtain ⟨-, earlier, next, -, hmakes⟩ := h.exists_makes_of_mem hmem
      have hids := h.parent_lt_id item hmem
      exact ⟨Option.some.inj ((h.stateUnder_eq.1 item hmem).symm.trans hpassed),
        makes_markedRules hrules hmakes, ih _ (by omega) (h.stateUnder_id hmem) rfl⟩
    rw [hbelow parent, Forest.unmarked_iff, Forest.marksApart_iff, List.forall_mem_map,
      List.forall_mem_map]
    constructor
    · intro hquote item hitem
      obtain ⟨rfl, hmade, hunmarked, -⟩ := hnext item hitem
      rcases hmade with ⟨hstate, hroot⟩ | ⟨houtside, -, -⟩
      · rw [hstate] at hunmarked
        exact hroot.addChildren (hunmarked hquote)
      · rw [hquote] at houtside
        cases houtside
    · intro item hitem
      obtain ⟨-, hmade, hunmarked, hapart⟩ := hnext item hitem
      rcases hmade with ⟨-, hroot⟩ | ⟨-, hinside, hchildren⟩
      · exact hroot.addChildren_marksApart hapart
      · rw [Node.children_addChildren, hchildren, List.nil_append]
        exact ⟨fun _ => hunmarked hinside, hapart⟩

/-- Quotes do not nest.  Take a list of rules with the one for quotes somewhere among others, all of
which come with inline markup, headers, lists or code.  Whenever a parse with them succeeds, its
forest is that of a parse in which the nodes of the rule for quotes are marked, without the marks,
and no marked node has a marked one below it at any depth.  A parse that starts inside a quote has
no marked nodes at all. -/
theorem quotes_do_not_nest [HasTextStyles T] (hrules : ∀ rule ∈ before ++ after, Companion rule)
    {forest : List (Node R T)}
    (h : (parse (before ++ quoteRule styles :: after) source state).value = .ok forest) :
    ∃ marked, (parse (markedRules before after styles) source state).value = .ok marked ∧
      Forest.mapStyles List.reduceOption marked = forest ∧ Forest.MarksApart marked ∧
      (QuoteState.inQuote state = true → Forest.Unmarked marked) := by
  rw [← mapStyles_markedRules, parse_mapStyles] at h
  obtain ⟨marked, hmarked, hforest⟩ := exists_of_map_eq_ok h
  obtain ⟨n, final, hreach, hfinish, -⟩ := exists_reaches_of_run hmarked
  obtain ⟨found, hfound⟩ := exists_history hreach
  obtain ⟨below, hroot, hbelow⟩ := hfound.exists_children
  obtain ⟨hunmarked, hapart⟩ := marksApart_below (fun rule hrule => (hrules rule hrule).keepsState)
    hfound hbelow (rfl : stateUnder state found Arena.root = some state)
  rw [hroot, hfinish] at hunmarked hapart
  exact ⟨marked, hmarked, hforest, hapart, hunmarked⟩

/-- Two quoted lines, of which the second one begins like a quote inside the quote, and the same
text in a parse that starts inside a quote. -/
theorem quotes_do_not_nest_in_lines :
    (∀ rule ∈ [Inline.escapeRule] ++ (Inline.rules : List (Rule Unit TextStyle Bool)),
      Companion rule) ∧
      ∀ inside : Bool, ∃ forest : List (Node Unit TextStyle),
        (parse ([Inline.escapeRule] ++ quoteRule [.italic] :: Inline.rules) "> a\n> > **b**"
          inside).value = .ok forest ∧
        ∃ marked, (parse (markedRules [Inline.escapeRule] Inline.rules [.italic]) "> a\n> > **b**"
            inside).value = .ok marked ∧
          Forest.mapStyles List.reduceOption marked = forest ∧ Forest.MarksApart marked ∧
          (QuoteState.inQuote inside = true → Forest.Unmarked marked) := by
  have hrules : ∀ rule ∈ [Inline.escapeRule] ++ (Inline.rules : List (Rule Unit TextStyle Bool)),
      Companion rule := fun rule hrule => .inline <| by
    rcases List.mem_append.1 hrule with hrule | hrule
    · rw [List.mem_singleton.1 hrule]
      exact List.mem_cons_self
    · exact hrule
  refine ⟨hrules, fun inside => ?_⟩
  have haccounts : ∀ rule ∈ ([Inline.escapeRule] ++ quoteRule [.italic] :: Inline.rules :
      List (Rule Unit TextStyle Bool)), rule.Accounts (.markup Unit TextStyle False) :=
    List.forall_mem_cons.2 ⟨Inline.accounts_escapeRule False,
      List.forall_mem_cons.2 ⟨accounts_quoteRule False _, Inline.accounts_of_mem_rules False⟩⟩
  obtain ⟨-, forest, hparse, -⟩ := leavesOut_of_accounts haccounts (by simp [Inline.rules])
    "> a\n> > **b**" inside
  exact ⟨forest, hparse, quotes_do_not_nest hrules hparse⟩

end Block

end RuledMarkup
