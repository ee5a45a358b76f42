import RuledMarkup.Proofs.Block.Markup
import RuledMarkup.Proofs.Inline.RoundTrip
import RuledMarkup.Proofs.Inline.TextEnds
import RuledMarkup.Proofs.Node.PreOrder
import RuledMarkup.Proofs.Parse.Relocation
import RuledMarkup.Proofs.Regex.Preferred

/-!
# The line after a header

A header leaves the line end behind its title to the text that follows.  That text stops right
behind the line end if the next line begins with a mark or a line end.  Otherwise it goes on, and
takes with it the text with which the next line begins.  So a header at the next line is found if it
begins with a number sign; one that begins with a space or with its title may be taken for text.

## Main definitions

* `Block.blocks` : the headers and list items of a forest.
* `Block.headerParts` : the pattern for headers, part by part.
* `Block.lineRules` : the rules for headers, list items and inline markup.

## Main results

* `Block.exists_frames_header` : a number sign, a space and a title make a header.
* `Block.exists_yields_header`, `Block.exists_yields_behind_header` : what is found at a header, and
  behind it.
* `Block.header_line_ends` : the line after a header is a line of its own.
* `Block.not_header_line_ends_before_indent` : but not if it begins with a space and a header.
-/

namespace RuledMarkup.Block

open Text (byteSize)
open Regex (PrefersEach)

variable {R T S : Type}

/-! ### Block nodes -/

/-- Is the kind that of a header, whose styles are known, or that of a list item? -/
def isBlock (isHeader : T → Bool) : Kind R T → Bool
  | .listItem _ => true
  | .style styles => styles.any isHeader
  | _ => false

/-- The headers and list items of a forest in pre-order, each with its text. -/
def blocks (isHeader : T → Bool) (forest : List (Node R T)) : List (Kind R T × String) :=
  ((Forest.preOrder forest).filter fun node => isBlock isHeader node.kind).map fun node =>
    (node.kind, node.textContent)

section Blocks

variable (isHeader : T → Bool) (forest : List (Node R T))

@[simp] theorem blocks_nil : blocks isHeader ([] : List (Node R T)) = [] := by simp [blocks]

theorem blocks_append (later : List (Node R T)) :
    blocks isHeader (forest ++ later) = blocks isHeader forest ++ blocks isHeader later := by
  rw [blocks, Forest.preOrder_append, List.filter_append, List.map_append]
  rfl

/-- A header or list item comes before those under it, and those after it come last. -/
theorem blocks_cons (node : Node R T) :
    blocks isHeader (node :: forest) =
      (if isBlock isHeader node.kind then [(node.kind, node.textContent)] else []) ++
        (blocks isHeader node.children ++ blocks isHeader forest) := by
  rw [← blocks_append, blocks, Forest.preOrder_cons, ← Forest.preOrder_append, List.filter_cons]
  split_ifs <;> rfl

@[simp] theorem blocks_text_cons (content : String) :
    blocks isHeader (.text content :: forest) = blocks isHeader forest := by
  rw [blocks_cons]
  simp [Node.text, Node.leaf, isBlock]

variable {isHeader forest} in
theorem blocks_eq_nil
    (h : (forest.all fun node => !isBlock isHeader node.kind && node.children.isEmpty) = true) :
    blocks isHeader forest = [] := by
  induction forest with
  | nil => exact blocks_nil isHeader
  | cons node forest ih =>
    simp only [List.all_cons, Bool.and_eq_true, Bool.not_eq_true', List.isEmpty_iff] at h
    obtain ⟨⟨hkind, hchildren⟩, hforest⟩ := h
    simp [blocks_cons, hkind, hchildren, ih (by simpa using hforest)]

end Blocks

/-! ### Headers of number signs -/

/-- The pattern for headers of number signs, part by part. -/
def headerParts : List Regex :=
  [.look .start, .loop true 0 none (.set (.one ' ')),
    .group 1 none (.loop true 1 none (.set (.one '#'))), .set (.union (.one ' ') (.one '\t')),
    .group 2 none (.loop true 0 none (.set (.compl (.one '\n')))),
    .loop true 0 none (.set (.one ' ')),
    .group 3 (some "ahead") (.alt (.set (.one '\n')) (.look .finish))]

/-- What the written patterns are. -/
structure PatternForms : Prop where
  headerLine_isAnchored : headerLine.regex.isAnchored = true
  headerLine_items : headerLine.regex.items = headerParts
  headerLine_ahead? : headerLine.ahead? = some 3
  listItem_opens : listItem.opensWithin ['*'] = true

theorem patternForms : PatternForms := by constructor <;> decide +kernel

/-- The preferred way through the end of a line, where a line or the text ends. -/
theorem exists_prefers_lineEnd {rest : List Char} (hrest : ∀ c ∈ rest.head?, c = '\n')
    (pre : List Char) (index : Nat) (name : Option String) :
    ∃ x post, rest = x ++ post ∧
      (Regex.group index name (.alt (.set (.one '\n')) (.look .finish))).Prefers pre x post
        [(index, ⟨byteSize pre, byteSize (pre ++ x)⟩)] := by
  cases rest with
  | nil =>
    have hlook : (Regex.look .finish).Prefers pre [] [] [] := Regex.prefers_look rfl
    exact ⟨[], [], rfl, (hlook.alt_right (by simp)).group index name⟩
  | cons c rest =>
    obtain rfl := hrest c rfl
    have hset : (Regex.set (.one '\n')).Prefers pre ['\n'] rest [] := Regex.prefers_set rfl
    exact ⟨['\n'], rest, rfl, (hset.alt_left _).group index name⟩

/-- The preferred way through a header: one number sign, a space, a title without blanks taken off
its end, and the end of the line. -/
theorem prefersEach_headerParts {title x post : List Char} (htitle : '\n' ∉ title)
    (hline : ∀ c ∈ (x ++ post).head?, c = '\n')
    (hfinish : (Regex.group 3 (some "ahead") (.alt (.set (.one '\n')) (.look .finish))).Prefers
      (['#', ' '] ++ title) x post
      [(3, ⟨byteSize (['#', ' '] ++ title), byteSize (['#', ' '] ++ title ++ x)⟩)]) :
    PrefersEach headerParts [] (['#', ' '] ++ title ++ x) post
      [(3, ⟨byteSize (['#', ' '] ++ title), byteSize (['#', ' '] ++ title ++ x)⟩),
        (2, ⟨byteSize ['#', ' '], byteSize (['#', ' '] ++ title)⟩),
        (1, ⟨byteSize [], byteSize ['#']⟩)] := by
  have hset : ∀ c ∈ title, (CharSet.compl (.one '\n')).mem c = true := by
    intro c hc
    rw [Inline.mem_compl_one]
    rintro rfl
    exact htitle hc
  have hend {s : CharSet} (hs : s.mem '\n' = false) : ∀ c ∈ (x ++ post).head?, s.mem c = false := by
    intro c hc
    rw [hline c hc, hs]
  have hstart : (Regex.look .start).Prefers [] [] (['#', ' '] ++ title ++ (x ++ post)) [] :=
    Regex.prefers_look rfl
  have hindent : (Regex.loop true 0 none (.set (.one ' '))).Prefers [] []
      (['#', ' '] ++ title ++ (x ++ post)) [] :=
    Regex.prefers_run (Nat.le_refl _) (by simp) (by simp [CharSet.mem])
  have hsigns : (Regex.loop true 1 none (.set (.one '#'))).Prefers [] ['#']
      ([' '] ++ title ++ (x ++ post)) [] :=
    Regex.prefers_run (Nat.le_refl _) (by simp [CharSet.mem]) (by simp [CharSet.mem])
  have hspace : (Regex.set (.union (.one ' ') (.one '\t'))).Prefers ['#'] [' ']
      (title ++ (x ++ post)) [] := Regex.prefers_set rfl
  have hrun : (Regex.loop true 0 none (.set (.compl (.one '\n')))).Prefers ['#', ' '] title
      (x ++ post) [] :=
    Regex.prefers_run (Nat.zero_le _) hset (hend rfl)
  have hblank : (Regex.loop true 0 none (.set (.one ' '))).Prefers (['#', ' '] ++ title) []
      (x ++ post) [] :=
    Regex.prefers_run (Nat.le_refl _) (by simp) (hend rfl)
  refine ⟨[], _, [], _, rfl, (List.append_nil _).symm, by simpa using hstart, ?_⟩
  refine ⟨[], _, [], _, rfl, (List.append_nil _).symm, by simpa using hindent, ?_⟩
  refine ⟨['#'], [' '] ++ title ++ x, _, [_, _], rfl, rfl,
    by simpa using hsigns.group 1 none, ?_⟩
  refine ⟨[' '], title ++ x, [], [_, _], rfl, rfl, by simpa using hspace, ?_⟩
  refine ⟨title, x, [_], [_], rfl, rfl, by simpa using hrun.group 2 none, ?_⟩
  refine ⟨[], x, [], [_], rfl, rfl, by simpa using hblank, ?_⟩
  exact ⟨x, [], _, [], by simp, rfl, by simpa using hfinish, rfl, rfl⟩

/-- A number sign, a space, and a title up to the end of the line make a header. -/
theorem exists_frames_header {pattern : Pattern} (hanchored : pattern.regex.isAnchored = true)
    (hitems : pattern.regex.items = headerParts) (hahead : pattern.ahead? = some 3)
    {window : String} {title rest : List Char}
    (hwindow : window.toList = ['#', ' '] ++ title ++ rest) (htitle : '\n' ∉ title)
    (hrest : ∀ c ∈ rest.head?, c = '\n') :
    ∃ captures, pattern.matchStart window = some captures ∧
      captures.Frames 1 [] ['#'] (' ' :: title) ∧ captures.Frames 2 ['#', ' '] title [] := by
  obtain ⟨x, post, rfl, hfinish⟩ :=
    exists_prefers_lineEnd hrest (['#', ' '] ++ title) 3 (some "ahead")
  obtain ⟨stop, -, hreads, hmatch⟩ := Pattern.exists_preferred hanchored hitems
    (by simpa using hwindow) (prefersEach_headerParts htitle hrest hfinish)
  have hsize : (pattern.captures window stop
      [(3, ⟨byteSize (['#', ' '] ++ title), byteSize (['#', ' '] ++ title ++ x)⟩),
        (2, ⟨byteSize ['#', ' '], byteSize (['#', ' '] ++ title)⟩),
        (1, ⟨byteSize [], byteSize ['#']⟩)]).size = byteSize (['#', ' '] ++ title) :=
    Pattern.size_of_lookup hahead rfl
  refine ⟨_, hmatch, ?_, ?_⟩
  · exact Pattern.frames_captures hreads (by decide) rfl (by simpa using hwindow) hsize
  · exact Pattern.frames_captures hreads (by decide) rfl (by simpa using hwindow)
      (by rwa [List.append_nil])

/-! ### Headers, list items and inline markup -/

variable [HasTextStyles T] (styles : HeaderStyles T) (bullet : StyleProvider R T)

/-- The rules for headers and list items, and those of inline markup. -/
def lineRules : List (Rule R T S) := rules styles bullet ++ Inline.rules

theorem lineRules_eq : (lineRules styles bullet : List (Rule R T S)) =
    [headerRule styles, underlinedHeaderRule styles, listItemRule bullet, Inline.escapeRule,
      Inline.newlineRule, Inline.boldRule, Inline.underlineRule, Inline.italicsRule,
      Inline.strikethroughRule, Inline.textRule] :=
  rfl

theorem accounts_of_mem_lineRules :
    ∀ rule ∈ (lineRules styles bullet : List (Rule R T S)), rule.Accounts (.markup R T True) := by
  intro rule hrule
  simp only [lineRules, rules, headerRules, List.mem_append, List.mem_cons, List.not_mem_nil,
    or_false] at hrule
  rcases hrule with ((rfl | rfl) | rfl) | hrule
  · exact accounts_headerRule styles
  · exact accounts_underlinedHeaderRule True styles
  · exact accounts_listItemRule bullet
  · exact Inline.accounts_of_mem_rules True rule hrule

theorem catches_lineRules : Catches (lineRules styles bullet : List (Rule R T S)) :=
  Inline.catches_of_mem (by simp [lineRules, Inline.rules])

theorem seesLines_of_mem_lineRules :
    ∀ rule ∈ (lineRules styles bullet : List (Rule R T S)), rule.SeesLines := by
  intro rule hrule
  simp only [lineRules, rules, headerRules, List.mem_append, List.mem_cons, List.not_mem_nil,
    or_false] at hrule
  rcases hrule with ((rfl | rfl) | rfl) | hrule
  · exact .atLineStart (Rule.seesLines_of_tryMatch rfl)
  · exact .atLineStart (Rule.seesLines_of_tryMatch rfl)
  · exact .atLineStart (Rule.seesLines_of_tryMatch rfl)
  · exact Inline.seesLines_of_mem_rules rule hrule

/-- Where no line starts, the rules do not match or they ask for no empty spans. -/
theorem startsLine_or_accounts_of_mem_lineRules :
    ∀ rule ∈ (lineRules styles bullet : List (Rule R T S)),
      (∀ window last state, (rule.tryMatch window last state).isSome = true →
        startsLine last = true) ∨ rule.Accounts (.markup R T False) := by
  intro rule hrule
  simp only [lineRules, rules, headerRules, List.mem_append, List.mem_cons, List.not_mem_nil,
    or_false] at hrule
  rcases hrule with ((rfl | rfl) | rfl) | hrule
  · exact .inl fun _ _ _ => Rule.startsLine_of_atLineStart
  · exact .inl fun _ _ _ => Rule.startsLine_of_atLineStart
  · exact .inl fun _ _ _ => Rule.startsLine_of_atLineStart
  · exact .inr (Inline.accounts_of_mem_rules False rule hrule)

/-- What begins with no mark, and at the start of a line with no line end and no header, is text. -/
theorem buildFirst_text {window : String} {c : Char} (hhead : window.toList.head? = some c)
    (hc : c ∉ ['\\', '*', '_', '~']) {last : Option String}
    (hline : startsLine last = true → c ≠ '\n' ∧ headerLine.matchStart window = none ∧
      underlinedHeader.matchStart window = none)
    {captures : Captures} (hmatch : Inline.text.matchStart window = some captures)
    (source : String) (offset : Nat) (state : S) :
    buildFirst (lineRules styles bullet) source offset window last state =
      .ok (captures, .terminal (.text captures.consumed) state) := by
  have hopen := Inline.rulesOpen R T S
  have hnot {chars : List Char} (h : chars ⊆ ['\\', '*', '_', '~']) : c ∉ chars :=
    fun hmem => hc (h hmem)
  have hheader : (headerRule styles : Rule R T S).tryMatch window last state = none :=
    Rule.tryMatch_atLineStart_eq_none fun hlast => (hline hlast).2.1
  have hunderlined : (underlinedHeaderRule styles : Rule R T S).tryMatch window last state = none :=
    Rule.tryMatch_atLineStart_eq_none fun hlast => (hline hlast).2.2
  have hnewline : (Inline.newlineRule : Rule R T S).tryMatch window last state = none :=
    Rule.tryMatch_atLineStart_eq_none fun hlast =>
      Rule.opensWithin_matching Inline.patternForms.newline_opens _ hhead
        (by simpa using (hline hlast).1)
  have hitem : (listItemRule bullet : Rule R T S).tryMatch window last state = none :=
    Rule.OpensWithin.atLineStart
      (fun hhead hc => Rule.opensWithin_matching patternForms.listItem_opens _ hhead hc) hhead
      (hnot (by simp))
  rw [lineRules_eq, buildFirst_cons_of_none hheader, buildFirst_cons_of_none hunderlined,
    buildFirst_cons_of_none hitem,
    buildFirst_cons_of_none (hopen.escapeRule hhead (hnot (by simp))),
    buildFirst_cons_of_none hnewline,
    buildFirst_cons_of_none (hopen.boldRule hhead (hnot (by simp))),
    buildFirst_cons_of_none (hopen.underlineRule hhead (hnot (by simp))),
    buildFirst_cons_of_none (hopen.italicsRule hhead (hnot (by simp))),
    buildFirst_cons_of_none (hopen.strikethroughRule hhead (hnot (by simp)))]
  exact buildFirst_cons hmatch
    (Pattern.size_pos_of_isAdvancing Inline.patternShapes.text_isAdvancing hmatch) rfl

/-! ### The title -/

/-- The title of a header is parsed to its end, and no line begins behind it. -/
theorem exists_descend_title {title : String} (hne : title ≠ "") (htitle : '\n' ∉ title.toList)
    (state : S) :
    ∃ depth below last, startsLine last = false ∧ ∀ source offset before,
      startsLine before = false →
        descend (lineRules styles bullet : List (Rule R T S)) source depth offset title before
          state = some (.whole below last) := by
  have haccounts := accounts_of_mem_lineRules (R := R) (S := S) styles bullet
  have hempty : startsLine (some "") = false := by decide +kernel
  obtain ⟨depth, outcome, houtcome⟩ := exists_descend haccounts hne (some "") state
  have hwithin := descend_within_line (startsLine_or_accounts_of_mem_lineRules styles bullet)
    (fun hpart => hpart.1) depth hempty htitle houtcome
  have hfound := accounts_of_descend haccounts (catches_lineRules styles bullet) depth hne houtcome
  cases outcome with
  | whole below last =>
    refine ⟨depth, below, last, hwithin, fun source offset before hbefore => ?_⟩
    exact descend_elsewhere (seesLines_of_mem_lineRules styles bullet) title source depth
      (hempty.trans hbefore.symm) houtcome rfl
  | stopped below => exact hwithin.elim
  | failed error => exact hfound.elim

/-- At the start of a line, a number sign, a space and a title make a header. -/
theorem exists_buildFirst_header {title rest : String} (htitle : '\n' ∉ title.toList)
    (hrest : ∀ c ∈ rest.toList.head?, c = '\n') {last : Option String}
    (hlast : startsLine last = true) (source : String) (offset : Nat) (state : S) :
    ∃ captures, buildFirst (lineRules styles bullet : List (Rule R T S)) source offset
        ("# " ++ title ++ rest) last state =
          .ok (captures, .nonterminal (.style [styles.style 1] []) state
            ⟨2, 2 + title.utf8ByteSize⟩) ∧
      captures.Over ("# " ++ title ++ rest) ∧ captures.consumed = "# " ++ title := by
  have hsplit : ("# " ++ title ++ rest).toList = ['#', ' '] ++ title.toList ++ rest.toList := by
    simp
  obtain ⟨captures, hmatch, hsigns, hframes⟩ := exists_frames_header
    patternForms.headerLine_isAnchored patternForms.headerLine_items
    patternForms.headerLine_ahead? hsplit htitle hrest
  have hover := Pattern.over_of_matchStart hmatch
  have hconsumed : captures.consumed = "# " ++ title :=
    String.toList_inj.1 (by simpa using hframes.toList_consumed)
  refine ⟨captures, ?_, hover, hconsumed⟩
  have htry : (headerRule styles : Rule R T S).tryMatch ("# " ++ title ++ rest) last state =
      some captures := (if_pos hlast).trans hmatch
  have hbuild : ((headerRule styles : Rule R T S).build captures state).value =
      .ok (.nonterminal (.style [styles.style 1] []) state ⟨2, 2 + title.utf8ByteSize⟩) := by
    have hsize : (⟨byteSize ['#', ' '], byteSize (['#', ' '] ++ title.toList)⟩ : Text.ByteRange) =
        ⟨2, 2 + title.utf8ByteSize⟩ := by
      rw [Text.byteSize_append, Text.byteSize_toList]
      rfl
    have hspan := Captures.span_of_range? (hsize ▸ hframes.range?_eq)
    simp only [headerRule, Rule.atLineStart, hsigns.group_eq hover, hspan, Except.map]
    rfl
  rw [lineRules_eq]
  exact buildFirst_cons htry (hframes.size_pos hover (by simp)) hbuild

/-- A header comes first, and then comes what the rest of the text yields behind it. -/
theorem exists_yields_header {title : String} (hne : title ≠ "") (htitle : '\n' ∉ title.toList)
    (state : S) :
    ∃ below, ∀ {rest : String} {forest : List (Node R T)}, (∀ c ∈ rest.toList.head?, c = '\n') →
      Yields (lineRules styles bullet) state false rest forest →
        Yields (lineRules styles bullet) state true ("# " ++ title ++ rest)
          (.style [styles.style 1] below :: forest) := by
  obtain ⟨depth, below, last, hlast, hdescend⟩ :=
    exists_descend_title (R := R) styles bullet hne htitle state
  refine ⟨below, fun {rest forest} hrest hyields => ?_⟩
  have hbelow (source : String) (offset : Nat) : ∃ depth last, startsLine last = false ∧
      (Spec.nonterminal (.style [styles.style 1] []) state ⟨2, 2 + title.utf8ByteSize⟩).descendInner
        (descend (lineRules styles bullet : List (Rule R T S)) source depth) offset
        ("# " ++ title ++ rest) (some ("# " ++ title)) = some (.whole below last) := by
    have hslice : Text.slice? ("# " ++ title ++ rest) ⟨2, 2 + title.utf8ByteSize⟩ = some title :=
      Text.slice?_eq_some_iff.2 ⟨"# ", rest, rfl, rfl, rfl⟩
    refine ⟨depth, last, hlast, ?_⟩
    rw [Spec.descendInner_of_slice? rfl hslice hne]
    exact hdescend source _ _ (startsLine_eq_false (by simpa using htitle))
  exact Yields.cons rfl (by simp) (fun source offset before hbefore =>
    exists_buildFirst_header styles bullet htitle hrest hbefore source offset state) hbelow hyields

/-! ### The next line -/

/-- Text comes first, and then comes what the rest yields. -/
theorem yields_text {window : String} {c : Char} {x post : List Char} {atStart : Bool}
    {captures : Captures} (hwindow : window.toList = c :: x ++ post)
    (hc : c ∉ ['\\', '*', '_', '~'])
    (hline : atStart = true → c ≠ '\n' ∧ headerLine.matchStart window = none ∧
      underlinedHeader.matchStart window = none)
    (hmatch : Inline.text.matchStart window = some captures)
    (hconsumed : captures.consumed.toList = c :: x) {state : S} {forest : List (Node R T)}
    (hrest : Yields (lineRules styles bullet) state (startsLine (some captures.consumed))
      (String.ofList post) forest) :
    Yields (lineRules styles bullet) state atStart window (.text captures.consumed :: forest) := by
  have hsplit : window = captures.consumed ++ String.ofList post :=
    String.toList_inj.1 (by simp [hwindow, hconsumed])
  have hne : window ≠ "" := by
    rintro rfl
    cases hwindow
  refine Yields.terminal hsplit hne (fun source offset last hlast => ?_) hrest
  refine ⟨captures, ?_, Pattern.over_of_matchStart hmatch, rfl⟩
  exact buildFirst_text styles bullet (by simp [hwindow]) hc (hlast ▸ hline) hmatch source offset
    state

/-- If text stops right behind a line end, then a line begins there. -/
theorem yields_line_end {b : String} {captures : Captures}
    (hmatch : Inline.text.matchStart ("\n" ++ b) = some captures)
    (hconsumed : captures.consumed.toList = ['\n']) {state : S} {forest : List (Node R T)}
    (hforest : Yields (lineRules styles bullet) state true b forest) :
    Yields (lineRules styles bullet) state false ("\n" ++ b)
      (.text captures.consumed :: forest) := by
  have hwindow : ("\n" ++ b).toList = '\n' :: [] ++ b.toList := by simp
  have hlast : startsLine (some captures.consumed) = true := by
    rw [startsLine, Option.all_some, String.endsWith_char_eq_getLast?, hconsumed]
    rfl
  have hrest : Yields (lineRules styles bullet) state (startsLine (some captures.consumed))
      (String.ofList b.toList) forest := by
    rwa [hlast, String.ofList_toList]
  exact yields_text styles bullet hwindow (by decide) (by simp) hmatch hconsumed hrest

/-- If text goes on behind a line end, then the next line begins with the same text when it is
parsed alone, unless it begins with a header. -/
theorem exists_yields_text_behind {b : String} {captures : Captures} {x : List Char}
    (hmatch : Inline.text.matchStart ("\n" ++ b) = some captures)
    (hconsumed : captures.consumed.toList = '\n' :: x) (hx : x ≠ [])
    (hnone : headerLine.matchStart b = none ∧ underlinedHeader.matchStart b = none) (state : S) :
    ∃ start later,
      Yields (lineRules styles bullet : List (Rule R T S)) state false ("\n" ++ b)
        (.text captures.consumed :: later) ∧
      Yields (lineRules styles bullet) state true b (.text start :: later) := by
  have hwindow : ("\n" ++ b).toList = '\n' :: b.toList := by simp
  obtain ⟨hnow, behind, post, hbehind, hbehindConsumed, hsplit⟩ :=
    Inline.exists_consumed_text_behind hwindow hmatch hconsumed hx
  obtain ⟨c, x, rfl⟩ := List.exists_cons_of_ne_nil hx
  obtain ⟨later, hlater⟩ := exists_yields (accounts_of_mem_lineRules (R := R) styles bullet)
    (catches_lineRules styles bullet) (seesLines_of_mem_lineRules styles bullet) state
    (startsLine (some captures.consumed)) (String.ofList post)
  have hlast : startsLine (some behind.consumed) = startsLine (some captures.consumed) := by
    simp only [startsLine, Option.all_some, String.endsWith_char_eq_getLast?, hbehindConsumed,
      hconsumed, List.getLast?_cons_cons]
  -- Text may end before marks and line ends, so the next line begins with neither.
  have hordinary : Inline.ordinary.mem c = true := by
    by_contra hc
    exact hnow (hsplit ▸ Inline.stopsBefore_cons (by simpa using hc) _)
  have hmarks : ['\\', '*', '_', '~'].all (! Inline.ordinary.mem ·) = true := by decide
  have hc : c ∉ ['\\', '*', '_', '~'] := fun hmem => by
    simpa [hordinary] using List.all_eq_true.1 hmarks c hmem
  have hnewline : c ≠ '\n' := by
    rintro rfl
    exact hnow (hsplit ▸ Inline.stopsBefore_line_end _)
  refine ⟨behind.consumed, later, ?_, ?_⟩
  · exact yields_text styles bullet (by rw [hwindow, hsplit]; rfl) (by decide) (by simp) hmatch
      hconsumed hlater
  · exact yields_text styles bullet hsplit hc (fun _ => ⟨hnewline, hnone⟩) hbehind hbehindConsumed
      (hlast ▸ hlater)

/-- Behind a header there is text, which takes the line end with it.  The text that begins the next
line may go with the line end as well, but nothing else does, unless a header begins there. -/
theorem exists_yields_behind_header {b : String}
    (hstops : (headerLine.matchStart b).isSome = true ∨
        (underlinedHeader.matchStart b).isSome = true →
      (Inline.text.matchStart ("\n" ++ b)).map Captures.consumed = some "\n") (state : S) :
    ∃ content later forest,
      Yields (lineRules styles bullet : List (Rule R T S)) state false ("\n" ++ b)
        (.text content :: later) ∧
      Yields (lineRules styles bullet) state true b forest ∧
      (forest = later ∨ ∃ start, forest = .text start :: later) := by
  have hwindow : ("\n" ++ b).toList = '\n' :: b.toList := by simp
  obtain ⟨captures, x, post, hmatch, hconsumed, -, -, -⟩ := Inline.exists_consumed_text hwindow
  by_cases hx : x = []
  · subst hx
    obtain ⟨forest, hforest⟩ := exists_yields (accounts_of_mem_lineRules (R := R) styles bullet)
      (catches_lineRules styles bullet) (seesLines_of_mem_lineRules styles bullet) state true b
    exact ⟨_, forest, forest, yields_line_end styles bullet hmatch hconsumed hforest, hforest,
      .inl rfl⟩
  · have hnone : ¬((headerLine.matchStart b).isSome = true ∨
        (underlinedHeader.matchStart b).isSome = true) := by
      intro hheader
      have hshort := hstops hheader
      rw [hmatch, Option.map_some, Option.some.injEq] at hshort
      rw [hshort] at hconsumed
      obtain ⟨-, rfl⟩ := List.cons.inj hconsumed
      exact hx rfl
    rw [not_or, Option.not_isSome_iff_eq_none, Option.not_isSome_iff_eq_none] at hnone
    obtain ⟨start, later, hbehind, hforest⟩ :=
      exists_yields_text_behind styles bullet hmatch hconsumed hx hnone state
    exact ⟨_, later, _, hbehind, hforest, .inr ⟨start, rfl⟩⟩

/-- The line after a header is a line of its own: its headers and list items are those that it has
when it is parsed alone, and so are the ones of all lines that follow.  That is so unless a header
begins it and the text that takes the line end with it goes on into the header. -/
theorem header_line_ends (isHeader : T → Bool) (state : S) {title b : String} (hne : title ≠ "")
    (htitle : '\n' ∉ title.toList)
    (hstops : (headerLine.matchStart b).isSome = true ∨
        (underlinedHeader.matchStart b).isSome = true →
      (Inline.text.matchStart ("\n" ++ b)).map Captures.consumed = some "\n") :
    ∃ whole first rest : List (Node R T),
      (parse (lineRules styles bullet) ("# " ++ title ++ "\n" ++ b) state).value = .ok whole ∧
      (parse (lineRules styles bullet) ("# " ++ title) state).value = .ok first ∧
      (parse (lineRules styles bullet) b state).value = .ok rest ∧
      blocks isHeader whole = blocks isHeader first ++ blocks isHeader rest := by
  have haccounts := accounts_of_mem_lineRules (R := R) (S := S) styles bullet
  obtain ⟨below, hheader⟩ := exists_yields_header (R := R) styles bullet hne htitle state
  obtain ⟨content, later, forest, hbehind, hforest, hsame⟩ :=
    exists_yields_behind_header (R := R) styles bullet hstops state
  have hwhole := hheader (by simp) hbehind
  have hfirst := @hheader "" [] (by simp) rfl
  rw [String.append_empty] at hfirst
  rw [← String.append_assoc] at hwhole
  refine ⟨_, _, _, hwhole.parse_eq haccounts, hfirst.parse_eq haccounts, hforest.parse_eq haccounts,
    ?_⟩
  rw [← List.singleton_append, blocks_append, blocks_text_cons]
  rcases hsame with rfl | ⟨start, rfl⟩
  · rfl
  · rw [blocks_text_cons]

/-! ### Headers by their levels -/

/-- The styles of inline markup, and the levels of headers. -/
instance : HasTextStyles (TextStyle ⊕ Nat) := ⟨.inl⟩

/-- Each header has its level as its style. -/
def levelStyles : HeaderStyles (TextStyle ⊕ Nat) := { style := .inr }

theorem header_line_ends_before_header :
    "T" ≠ "" ∧ '\n' ∉ "T".toList ∧
      (Inline.text.matchStart ("\n" ++ "# U")).map Captures.consumed = some "\n" ∧
      ∃ whole first rest : List (Node Unit (TextStyle ⊕ Nat)),
        (parse (lineRules levelStyles .empty) ("# " ++ "T" ++ "\n" ++ "# U") ()).value =
          .ok whole ∧
        (parse (lineRules levelStyles .empty) ("# " ++ "T") ()).value = .ok first ∧
        (parse (lineRules levelStyles .empty) "# U" ()).value = .ok rest ∧
        blocks Sum.isRight whole = blocks Sum.isRight first ++ blocks Sum.isRight rest := by
  have hne : "T" ≠ "" := by decide
  have htitle : '\n' ∉ "T".toList := by decide
  have hshort : (Inline.text.matchStart ("\n" ++ "# U")).map Captures.consumed = some "\n" := by
    decide +kernel
  exact ⟨hne, htitle, hshort,
    header_line_ends levelStyles .empty Sum.isRight () hne htitle fun _ => hshort⟩

/-- A header, and neither headers nor list items under it and after it. -/
def isSingleHeader : Outcome Unit (TextStyle ⊕ Nat) → Bool
  | .whole (.mk (.style [.inr _]) below :: later) _ =>
    (below ++ later).all fun node => !isBlock Sum.isRight node.kind && node.children.isEmpty
  | _ => false

/-- If a descent finds a single header, then so does a parse. -/
theorem exists_parse_of_isSingleHeader {source : String} (hsource : source ≠ "") {depth : Nat}
    (h : (descend (lineRules levelStyles .empty) source depth 0 source none ()).any
      isSingleHeader = true) :
    ∃ forest : List (Node Unit (TextStyle ⊕ Nat)),
      (parse (lineRules levelStyles .empty) source ()).value = .ok forest ∧
        (blocks Sum.isRight forest).length = 1 := by
  obtain ⟨outcome, hdescend, hshape⟩ := (Option.any_eq_true _ _).1 h
  have hvalue := parse_of_descend (accounts_of_mem_lineRules levelStyles .empty) hsource hdescend
  rw [isSingleHeader.eq_def] at hshape
  split at hshape
  · refine ⟨_, hvalue, ?_⟩
    rw [blocks_cons, Node.children_mk, ← blocks_append, blocks_eq_nil hshape]
    rfl
  · cases hshape

/-- The line after a header is not always a line of its own: the space before a header is taken for
text behind the line end. -/
theorem not_header_line_ends_before_indent :
    ¬ ∀ title b : String, title ≠ "" → '\n' ∉ title.toList →
      ∃ whole first rest : List (Node Unit (TextStyle ⊕ Nat)),
        (parse (lineRules levelStyles .empty) ("# " ++ title ++ "\n" ++ b) ()).value = .ok whole ∧
        (parse (lineRules levelStyles .empty) ("# " ++ title) ()).value = .ok first ∧
        (parse (lineRules levelStyles .empty) b ()).value = .ok rest ∧
        blocks Sum.isRight whole = blocks Sum.isRight first ++ blocks Sum.isRight rest := by
  intro h
  obtain ⟨whole, first, rest, hwhole, hfirst, hrest, hblocks⟩ :=
    h "T" " # U" (by decide) (by decide)
  have hone {source : String} {forest : List (Node Unit (TextStyle ⊕ Nat))}
      (hvalue : (parse (lineRules levelStyles .empty) source ()).value = .ok forest)
      (hsource : source ≠ "")
      (hdescend : (descend (lineRules levelStyles .empty) source 6 0 source none ()).any
        isSingleHeader = true) : (blocks Sum.isRight forest).length = 1 := by
    obtain ⟨forest', hvalue', hlength⟩ := exists_parse_of_isSingleHeader hsource hdescend
    rwa [Except.ok.inj (hvalue.symm.trans hvalue')]
  have hlength := congrArg List.length hblocks
  rw [List.length_append, hone hwhole (by decide) (by decide +kernel),
    hone hfirst (by decide) (by decide +kernel), hone hrest (by decide) (by decide +kernel)]
    at hlength
  exact absurd hlength (by decide)

end RuledMarkup.Block
