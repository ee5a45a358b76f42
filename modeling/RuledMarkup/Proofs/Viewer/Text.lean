import RuledMarkup.Proofs.Viewer.Success

/-!
# The two texts of a document

The text of a forest can be read off its nodes, where a code block has its body and its tokens are
not looked at, and it can be rendered, where a code block writes its tokens and its body is not
looked at.  A forest may be such that the two differ.  In the forest of a document they agree: the
rules build no text with children and no tags outside of code, and the tokens of a code block show
its body.

## Main definitions

* `Node.Agrees`, `Forest.Agrees` : a tree or forest is rendered as its text in every context.
* `Rule.Agrees` : the nodes that a rule builds agree if what is parsed under them does.
* `Account.agreeing` : the account that holds of the forests that agree.

## Main results

* `Node.agrees_mk` : a node that only shows its children agrees if they do.
* `Code.agrees_of_buildBlock` : code blocks agree.
* `Viewer.parse_agrees` : every document is rendered as its text.
-/

namespace RuledMarkup

variable {R T S : Type}

/-! ### Trees whose texts agree -/

/-- The tree is rendered as its text in every context. -/
def Node.Agrees (node : Node R T) : Prop := ∀ ctx, node.renderedText ctx = node.textContent

/-- The forest is rendered as its text in every context. -/
def Forest.Agrees (forest : List (Node R T)) : Prop :=
  ∀ ctx, Forest.renderedText ctx forest = Forest.textContent forest

namespace Forest

theorem agrees_nil : Agrees ([] : List (Node R T)) := fun ctx => by
  rw [renderedText_nil, textContent_nil]

theorem Agrees.append {a b : List (Node R T)} (ha : Agrees a) (hb : Agrees b) : Agrees (a ++ b) :=
  fun ctx => by rw [renderedText_append, textContent_append, ha, hb]

theorem Agrees.cons {node : Node R T} {forest : List (Node R T)} (hnode : node.Agrees)
    (hforest : Agrees forest) : Agrees (node :: forest) :=
  fun ctx => by rw [renderedText_cons, textContent_cons, hnode, hforest]

theorem Agrees.singleton {node : Node R T} (hnode : node.Agrees) : Agrees [node] :=
  .cons hnode agrees_nil

end Forest

/-- Do nodes of the kind have no text of their own, and show their children and nothing else? -/
def Kind.showsChildren : Kind R T → Bool
  | .parent | .style _ | .inlineCode _ | .definition | .function | .field | .listItem _ => true
  | _ => false

namespace Node

theorem agrees_text (content : String) : (text content : Node R T).Agrees :=
  fun ctx => renderedText_text ctx content

/-- A node that only shows its children agrees if they do. -/
theorem agrees_mk {kind : Kind R T} (hkind : kind.showsChildren = true) {children : List (Node R T)}
    (hchildren : Forest.Agrees children) : (mk kind children).Agrees := by
  intro ctx
  have htext : (mk kind children).textContent = Forest.textContent children := by
    cases kind <;> first | rfl | cases hkind
  have hrendered : (mk kind children).renderedText ctx = Forest.renderedText ctx children := by
    cases kind with
    | parent | definition | function | field => simp [renderedText, render, Forest.text_render]
    | style | inlineCode | listItem => simp [renderedText, render, Forest.text_render]
    | _ => cases hkind
  rw [htext, hrendered, hchildren]

end Node

/-- What is rendered for a code block: its body, or its tokens if it has any. -/
theorem Code.renderedText_blockNode (ctx : R) (language : Option String) (body : String)
    (styles : StyleProvider R T) (tokens : List (Node R T)) :
    (blockNode language body styles tokens).renderedText ctx =
      if tokens.isEmpty then body else Forest.renderedText ctx tokens := by
  simp only [blockNode, Node.renderedText, Node.render, StyledText.text_setStyles]
  split_ifs
  · simp
  · rfl

/-- A code block agrees if it has no tokens or if these show its body. -/
theorem Code.agrees_blockNode {language : Option String} {body : String}
    {styles : StyleProvider R T} {tokens : List (Node R T)}
    (h : tokens ≠ [] → ∀ ctx, Forest.renderedText ctx tokens = body) :
    (blockNode language body styles tokens).Agrees := by
  intro ctx
  rw [renderedText_blockNode]
  split_ifs with htokens
  · rfl
  · exact h (by simpa using htokens) ctx

/-! ### Rules that build such trees -/

/-- The account of the forests that agree, whatever their windows are. -/
def Account.agreeing (R T : Type) : Account R T where
  whole _ forest := Forest.Agrees forest
  part _ forest := Forest.Agrees forest
  whole_nil := Forest.agrees_nil
  whole_append := .append
  part_append := .append
  part_left := fun _ h => h

/-- The node agrees if nothing is parsed under it, or else if what is parsed under it does. -/
def Spec.Agrees (spec : Spec R T S) : Prop :=
  match spec.span with
  | none => spec.root.Agrees
  | some _ => ∀ below, Forest.Agrees below → (spec.root.addChildren below).Agrees

/-- The nodes that the rule builds agree if what is parsed under them does. -/
def Rule.Agrees (rule : Rule R T S) : Prop :=
  ∀ ⦃captures state spec⦄, (rule.build captures state).value = .ok spec → spec.Agrees

/-- A rule that never fails and whose nodes agree. -/
theorem Rule.Accounts.agreeing {account : Account R T} {rule : Rule R T S}
    (h : rule.Accounts account) (hagrees : rule.Agrees) : rule.Accounts (.agreeing R T) := by
  intro window last state captures hmatch
  obtain ⟨hover, hsize, spec, hbuilt, hspec⟩ := h hmatch
  have hroot := hagrees hbuilt
  refine ⟨hover, hsize, spec, hbuilt, ?_⟩
  cases hspan : spec.span with
  | none =>
    simp only [Spec.Accounts, Spec.Agrees, hspan] at hroot ⊢
    exact .singleton hroot
  | some span =>
    simp only [Spec.Accounts, Spec.Agrees, hspan] at hspec hroot ⊢
    obtain ⟨inner, hslice, hlt, -⟩ := hspec
    have hbelow {below : List (Node R T)} (h : Forest.Agrees below) :
        Forest.Agrees [spec.root.addChildren below] := .singleton (hroot below h)
    refine ⟨inner, hslice, hlt, hbelow, hbelow, fun _ => ?_⟩
    have hroot' := hbelow Forest.agrees_nil
    rwa [Node.addChildren_nil] at hroot'

/-- A finished text. -/
theorem Spec.agrees_text (content : String) (state : S) :
    (Spec.terminal (.text content) state : Spec R T S).Agrees :=
  Node.agrees_text content

/-- A node that shows what is parsed under it. -/
theorem Spec.agrees_nonterminal {kind : Kind R T} (hkind : kind.showsChildren = true) (state : S)
    (span : Text.ByteRange) : (Spec.nonterminal (.leaf kind) state span).Agrees := fun _ hbelow =>
  Node.agrees_mk hkind hbelow

namespace Inline

theorem agrees_escapeRule : (escapeRule : Rule R T S).Agrees := by
  intro captures state spec h
  obtain ⟨character, -, rfl⟩ := exists_of_map_eq_ok h
  exact Spec.agrees_text character state

theorem agrees_newlineRule : (newlineRule : Rule R T S).Agrees := by
  intro captures state spec h
  obtain rfl := Except.ok.inj h
  exact Spec.agrees_text _ state

theorem agrees_textRule : (textRule : Rule R T S).Agrees := by
  intro captures state spec h
  obtain rfl := Except.ok.inj h
  exact Spec.agrees_text _ state

/-- A rule that styles the first group of its pattern. -/
theorem agrees_styleRule (pattern : Pattern) (styles : List T) :
    (Rule.style pattern styles : Rule R T S).Agrees := by
  intro captures state spec h
  obtain ⟨span, -, rfl⟩ := exists_of_map_eq_ok h
  exact Spec.agrees_nonterminal rfl state span

variable [HasTextStyles T]

theorem agrees_italicsRule : (italicsRule : Rule R T S).Agrees := by
  intro captures state spec h
  obtain ⟨span, rfl⟩ := exists_of_build_italicsRule h
  exact Spec.agrees_nonterminal rfl state span

theorem agrees_of_mem_rules : ∀ rule ∈ (rules : List (Rule R T S)), rule.Agrees := by
  intro rule hrule
  simp only [rules, markupRules, List.mem_append, List.mem_cons, List.not_mem_nil,
    or_false] at hrule
  rcases hrule with (rfl | rfl | rfl | rfl | rfl | rfl) | rfl
  · exact agrees_escapeRule
  · exact agrees_newlineRule
  · exact agrees_styleRule _ _
  · exact agrees_styleRule _ _
  · exact agrees_italicsRule
  · exact agrees_styleRule _ _
  · exact agrees_textRule

end Inline

namespace Block

theorem agrees_quoteRule [QuoteState S] (styles : List T) :
    (quoteRule styles : Rule R T S).Agrees := by
  intro captures state spec h
  obtain ⟨span, -, rfl⟩ := exists_of_map_eq_ok h
  exact Spec.agrees_nonterminal rfl _ span

theorem agrees_listItemRule (bullet : StyleProvider R T) :
    (listItemRule bullet : Rule R T S).Agrees := by
  intro captures state spec h
  obtain ⟨span, -, rfl⟩ := exists_of_map_eq_ok h
  exact Spec.agrees_nonterminal rfl state span

theorem agrees_headerRule (styles : HeaderStyles T) : (headerRule styles : Rule R T S).Agrees := by
  intro captures state spec h
  obtain ⟨signs, title, -, -, rfl⟩ := exists_of_build_headerRule h
  exact Spec.agrees_nonterminal rfl state title

theorem agrees_underlinedHeaderRule (styles : HeaderStyles T) :
    (underlinedHeaderRule styles : Rule R T S).Agrees := by
  intro captures state spec h
  obtain ⟨level, title, -, -, rfl⟩ := exists_of_build_underlinedHeaderRule h
  exact Spec.agrees_nonterminal rfl state title

end Block

namespace Code

variable {languages : Languages R T S}

/-- A code block agrees, since its tokens show its body in every language. -/
theorem agrees_of_buildBlock
    (hlanguages : ∀ language rules, languages.lookup language = some rules →
      ∀ body state tokens, (parse rules body state).value = .ok tokens →
        ∀ ctx, Forest.renderedText ctx tokens = body)
    {textStyles : StyleProvider R T} {captures : Captures} {state : S} {node : Node R T}
    (h : (buildBlock textStyles languages captures state).value = .ok node) : node.Agrees := by
  obtain ⟨language, body, tokens, rfl, htokens⟩ := exists_of_buildBlock h
  refine agrees_blockNode fun hne => ?_
  rcases htokens with rfl | ⟨tag, rules, hlookup, htokens⟩
  · exact absurd rfl hne
  · exact hlanguages tag rules hlookup body state tokens htokens

theorem agrees_inlineRule (textStyles background : StyleProvider R T) :
    (inlineRule textStyles background : Rule R T S).Agrees := by
  intro captures state spec h
  obtain ⟨body, -, rfl⟩ := exists_of_map_eq_ok h
  exact Node.agrees_mk rfl (.singleton (agrees_blockNode fun hnil => (hnil rfl).elim))

/-- A code block with what is put around it. -/
theorem agrees_blockRule
    (hlanguages : ∀ language rules, languages.lookup language = some rules →
      ∀ body state tokens, (parse rules body state).value = .ok tokens →
        ∀ ctx, Forest.renderedText ctx tokens = body)
    (textStyles : StyleProvider R T) {wrapper : Wrapper R T S}
    (hwrapper : ∀ code onNewLine state, code.Agrees → (wrapper code onNewLine state).Agrees) :
    (blockRule textStyles languages wrapper).Agrees := by
  intro captures state spec h
  obtain ⟨node, hnode, rfl⟩ := exists_of_map_eq_ok h
  exact hwrapper node _ state (agrees_of_buildBlock hlanguages hnode)

end Code

/-! ### Documents -/

namespace Viewer

open Terminal

/-- The tokens of the body of a code block show the body, in every language. -/
theorem renderedText_tokens {language : String} {rules : List (Rule Theme Attribute State)}
    (h : (Code.languages tokenStyles).lookup language = some rules) (body : String) (state : State)
    {tokens : List (Node Theme Attribute)}
    (htokens : (RuledMarkup.parse rules body state).value = .ok tokens) (context : Theme) :
    Forest.renderedText context tokens = body := by
  have hmem := mem_of_lookup h
  obtain ⟨tokens', hvalue, hwhole | ⟨hpart, -⟩⟩ := parse_accounts
    (Code.accounts_of_mem_languages hmem) (Code.catches_of_mem_languages hmem) body state
  · obtain rfl := Except.ok.inj (htokens.symm.trans hvalue)
    exact hwhole.1 context
  · exact hpart.elim

theorem agrees_wrapBlock (theme : Theme) (code : Node Theme Attribute) (onNewLine : Bool)
    (state : State) (h : code.Agrees) : (wrapBlock theme code onNewLine state).Agrees := by
  rw [wrapBlock]
  split_ifs
  · exact Node.agrees_mk rfl (.singleton h)
  · exact h

theorem agrees_of_mem_rules (theme : Theme) : ∀ rule ∈ rules theme, rule.Agrees := by
  intro rule hrule
  simp only [rules, Block.rules, Block.headerRules, List.mem_append, List.mem_cons,
    List.not_mem_nil, or_false] at hrule
  rcases hrule with ((rfl | rfl | rfl | rfl) | (rfl | rfl) | rfl) | hrule
  · exact Inline.agrees_escapeRule
  · exact Code.agrees_blockRule
      (fun _ _ h body state _ htokens => renderedText_tokens h body state htokens) _
      (agrees_wrapBlock theme)
  · exact Code.agrees_inlineRule _ _
  · exact Block.agrees_quoteRule _
  · exact Block.agrees_headerRule _
  · exact Block.agrees_underlinedHeaderRule _
  · exact Block.agrees_listItemRule _
  · exact Inline.agrees_of_mem_rules rule hrule

/-- The two texts of a document agree: in the colors of every theme, a document is rendered as the
text of its forest.  This is so although the text of a code block is its body, whatever its tokens
are, and what is rendered for it are its tokens, whatever its body is. -/
theorem parse_agrees (theme : Theme) (source : String) :
    (∃ forest, (parse theme source).value = .ok forest ∧
      ∀ context, (Forest.renderText context forest).text = Forest.textContent forest) ∧
      ∀ language body styles (tokens : List (Node Theme Attribute)), tokens ≠ [] →
        Forest.textContent [Code.blockNode language body styles tokens] = body ∧
        ∀ context, (Forest.renderText context [Code.blockNode language body styles tokens]).text =
          (Forest.renderText context tokens).text := by
  constructor
  · have htext : Inline.textRule ∈ rules theme := by simp [rules, Inline.rules]
    obtain ⟨forest, hvalue, hagrees⟩ := parse_accounts
      (fun rule hrule =>
        (accounts_of_mem_rules theme rule hrule).agreeing (agrees_of_mem_rules theme rule hrule))
      (Inline.catches_of_mem htext) source {}
    refine ⟨forest, hvalue, ?_⟩
    rcases hagrees with hwhole | ⟨hpart, -⟩
    · exact hwhole
    · exact hpart
  · intro language body styles tokens htokens
    refine ⟨?_, fun context => ?_⟩
    · rw [Forest.textContent_cons, Forest.textContent_nil, String.append_empty]
      rfl
    · change Forest.renderedText context _ = Forest.renderedText context tokens
      rw [Forest.renderedText_cons, Forest.renderedText_nil, String.append_empty,
        Code.renderedText_blockNode, if_neg (by simpa using htokens)]

end Viewer

end RuledMarkup
