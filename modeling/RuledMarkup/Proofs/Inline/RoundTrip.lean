import RuledMarkup.Proofs.Inline.Markup
import RuledMarkup.Proofs.Inline.Prose
import RuledMarkup.Proofs.Parse.Relocation

/-!
# Inline markup read back

Prose that is written as inline markup is read back as it was.  Words and the spaces beside them are
text, and what stands between the marks of a style is styled, since earlier rules open with other
characters.

## Main definitions

* `Rule.OpensWithin` : a rule matches no window that begins with a character other than some.
* `FindsIn` : descents through a window find a forest, wherever the window stands.

## Main results

* `Inline.exists_buildFirst_style` : what stands between the marks of a style is styled.
* `Inline.exists_buildFirst_text` : words and spaces are text.
* `FindsIn.parse_eq` : a source is parsed to what is found in it.
* `Inline.parse_written` : prose that is written as inline markup is read back.
-/

namespace RuledMarkup

open Text (byteSize isSpace_of_isAlpha ne_of_isAlpha)

variable {R T S : Type}

/-! ### The first rule that matches -/

/-- A rule does not match a window that begins with a character other than some. -/
def Rule.OpensWithin (rule : Rule R T S) (chars : List Char) : Prop :=
  ∀ {window last state c}, window.toList.head? = some c → c ∉ chars →
    rule.tryMatch window last state = none

theorem Rule.opensWithin_matching {pattern : Pattern} {chars : List Char}
    (hpattern : pattern.opensWithin chars = true)
    (build : Captures → S → Except ParseError (Spec R T S)) :
    (matching pattern build).OpensWithin chars := by
  intro window last state c hhead hc
  exact Pattern.matchStart_eq_none hpattern (by simpa [hhead] using hc)

theorem Rule.OpensWithin.atLineStart {rule : Rule R T S} {chars : List Char}
    (h : rule.OpensWithin chars) : rule.atLineStart.OpensWithin chars := by
  intro window last state c hhead hc
  simp [Rule.atLineStart, h hhead hc]

namespace Inline

variable [HasTextStyles T] {window : String} {inner rest : List Char}

/-- Where the rules of inline markup match. -/
structure RulesOpen (R T S : Type) [HasTextStyles T] : Prop where
  escapeRule : (escapeRule : Rule R T S).OpensWithin ['\\']
  newlineRule : (newlineRule : Rule R T S).OpensWithin ['\n']
  boldRule : (boldRule : Rule R T S).OpensWithin ['*']
  underlineRule : (underlineRule : Rule R T S).OpensWithin ['_']
  italicsRule : (italicsRule : Rule R T S).OpensWithin ['_', '*']
  strikethroughRule : (strikethroughRule : Rule R T S).OpensWithin ['~']

theorem rulesOpen (R T S : Type) [HasTextStyles T] : RulesOpen R T S where
  escapeRule := Rule.opensWithin_matching patternForms.escape_opens _
  newlineRule := Rule.OpensWithin.atLineStart (fun hhead hc =>
    Rule.opensWithin_matching patternForms.newline_opens _ hhead hc)
  boldRule := Rule.opensWithin_matching patternForms.bold_opens _
  underlineRule := Rule.opensWithin_matching patternForms.underline_opens _
  italicsRule := Rule.opensWithin_matching patternForms.italics_opens _
  strikethroughRule := Rule.opensWithin_matching patternForms.strikethrough_opens _

/-- The rules in order. -/
theorem rules_eq : (rules : List (Rule R T S)) =
    [escapeRule, newlineRule, boldRule, underlineRule, italicsRule, strikethroughRule, textRule] :=
  rfl

/-- Of the text consumed last, the rules only look at whether a line begins behind it. -/
theorem seesLines_of_mem_rules : ∀ rule ∈ (rules : List (Rule R T S)), rule.SeesLines := by
  intro rule hrule
  simp only [rules_eq, List.mem_cons, List.not_mem_nil, or_false] at hrule
  rcases hrule with rfl | rfl | rfl | rfl | rfl | rfl | rfl
  · exact Rule.seesLines_of_tryMatch rfl
  · exact .atLineStart (Rule.seesLines_of_tryMatch rfl)
  all_goals exact Rule.seesLines_of_tryMatch rfl

omit [HasTextStyles T] in
/-- A rule for text between double marks makes a node of it. -/
theorem exists_buildFirst_doubles {pattern : Pattern} {mark : Char} {body : Regex}
    (hpattern : Doubles pattern mark body)
    (hwindow : window.toList = [mark, mark] ++ inner ++ [mark, mark] ++ rest)
    (hbody : ∀ post, body.Reads [mark, mark] inner post []) (hapart : Apart mark inner)
    (hlast : mark ∉ inner.getLast?) (hrest : mark ∉ rest.head?) (styles : List T)
    (later : List (Rule R T S)) (source : String) (offset : Nat) (last : Option String)
    (state : S) :
    ∃ captures, buildFirst (.style pattern styles :: later) source offset window last state =
        .ok (captures, .nonterminal (.style styles []) state
          ⟨byteSize [mark, mark], byteSize ([mark, mark] ++ inner)⟩) ∧
      captures.Over window ∧ captures.consumed.toList = [mark, mark] ++ inner ++ [mark, mark] := by
  obtain ⟨captures, hmatch, hframes⟩ :=
    exists_frames_doubled hpattern hwindow hbody hapart hlast hrest
  have hover := Pattern.over_of_matchStart hmatch
  exact ⟨captures, buildFirst_cons hmatch (hframes.size_pos hover (by simp))
    (Rule.build_style pattern styles state hframes), hover, hframes.toList_consumed⟩

/-- What stands between the marks of a style is styled. -/
theorem exists_buildFirst_style {s : TextStyle} (hinner : Enclosable s inner)
    (hwindow : window.toList = s.signs ++ inner ++ s.signs ++ rest)
    (hrest : s.sign ∉ rest.head?) (source : String) (offset : Nat) (last : Option String)
    (state : S) :
    ∃ captures, buildFirst (rules : List (Rule R T S)) source offset window last state =
        .ok (captures, .nonterminal (.style [HasTextStyles.textStyle s] []) state
          ⟨byteSize s.signs, byteSize (s.signs ++ inner)⟩) ∧
      captures.Over window ∧ captures.consumed.toList = s.signs ++ inner ++ s.signs := by
  have hopen := rulesOpen R T S
  have hlast := hinner.sign_not_mem_getLast?
  have hhead : window.toList.head? = some s.sign := by rw [hwindow]; cases s <;> rfl
  have hescape : s.sign ∉ ['\\'] := by cases s <;> decide
  have hnewline : s.sign ∉ ['\n'] := by cases s <;> decide
  rw [rules_eq, buildFirst_cons_of_none (hopen.escapeRule hhead hescape),
    buildFirst_cons_of_none (hopen.newlineRule hhead hnewline)]
  cases s with
  | bold =>
    exact exists_buildFirst_doubles patternForms.bold_doubles hwindow
      (reads_untrimmed hinner.ne_nil _) (hinner.apart (by decide)) hlast hrest ..
  | underline =>
    rw [buildFirst_cons_of_none (hopen.boldRule hhead (by decide))]
    exact exists_buildFirst_doubles patternForms.underline_doubles hwindow
      (reads_untrimmed hinner.ne_nil _) (hinner.apart (by decide)) hlast hrest ..
  | italic =>
    have hbold : (boldRule : Rule R T S).tryMatch window last state = none := by
      obtain ⟨c, tail, rfl⟩ := List.exists_cons_of_ne_nil hinner.ne_nil
      exact patternForms.bold_doubles.matchStart_eq_none hwindow
        (ne_of_isAlpha (hinner.isAlpha_head c rfl) rfl)
    rw [buildFirst_cons_of_none hbold,
      buildFirst_cons_of_none (hopen.underlineRule hhead (by decide))]
    obtain ⟨captures, hmatch, hframes⟩ := exists_frames_slanted patternForms.italics_regex
      patternForms.italics_ahead? hwindow (hinner.slanted rfl) hrest
    have hover := Pattern.over_of_matchStart hmatch
    exact ⟨captures, buildFirst_cons hmatch (hframes.size_pos hover (by simp))
      (build_italicsRule state (.inl rfl) hframes hinner.ne_nil), hover, hframes.toList_consumed⟩
  | strikethrough =>
    rw [buildFirst_cons_of_none (hopen.boldRule hhead (by decide)),
      buildFirst_cons_of_none (hopen.underlineRule hhead (by decide)),
      buildFirst_cons_of_none (hopen.italicsRule hhead (by decide))]
    have hbody := reads_trimmed hinner.ne_nil
      (fun c hc => isSpace_of_isAlpha (hinner.isAlpha_head c hc))
      (fun c hc => isSpace_of_isAlpha (hinner.isAlpha_last c hc))
    exact exists_buildFirst_doubles patternForms.strikethrough_doubles hwindow (hbody _)
      (hinner.apart (by decide)) hlast hrest ..

/-- A window that begins with no mark and no line end begins with text. -/
theorem buildFirst_text {c : Char} (hhead : window.toList.head? = some c)
    (hc : c ∉ ['\\', '\n', '*', '_', '~']) {captures : Captures}
    (hmatch : text.matchStart window = some captures) (source : String) (offset : Nat)
    (last : Option String) (state : S) :
    buildFirst (rules : List (Rule R T S)) source offset window last state =
      .ok (captures, .terminal (.text captures.consumed) state) := by
  have hopen := rulesOpen R T S
  have hnot {chars : List Char} (h : chars ⊆ ['\\', '\n', '*', '_', '~']) : c ∉ chars :=
    fun hmem => hc (h hmem)
  rw [rules_eq, buildFirst_cons_of_none (hopen.escapeRule hhead (hnot (by simp))),
    buildFirst_cons_of_none (hopen.newlineRule hhead (hnot (by simp))),
    buildFirst_cons_of_none (hopen.boldRule hhead (hnot (by simp))),
    buildFirst_cons_of_none (hopen.underlineRule hhead (hnot (by simp))),
    buildFirst_cons_of_none (hopen.italicsRule hhead (hnot (by simp))),
    buildFirst_cons_of_none (hopen.strikethroughRule hhead (hnot (by simp)))]
  exact buildFirst_cons hmatch
    (Pattern.size_pos_of_isAdvancing patternShapes.text_isAdvancing hmatch) rfl

/-- Words and spaces up to a mark, or up to the end, are text. -/
theorem exists_buildFirst_text {content : String}
    (hwindow : window.toList = content.toList ++ rest) (hne : content ≠ "")
    (hcontent : ∀ c ∈ content.toList, c.isAlpha = true ∨ c = ' ')
    (hhead : ∀ c ∈ rest.head?, c ∈ ['*', '_', '~'])
    (hrest : ∀ c ∈ rest, c.isAlpha = true ∨ c ∈ [' ', '*', '_', '~']) (source : String)
    (offset : Nat) (last : Option String) (state : S) :
    ∃ captures, buildFirst (rules : List (Rule R T S)) source offset window last state =
        .ok (captures, .terminal (.text content) state) ∧
      captures.Over window ∧ captures.consumed = content := by
  have hne' : content.toList ≠ [] := fun h => hne (String.toList_eq_nil_iff.1 h)
  obtain ⟨c, tail, hcons⟩ := List.exists_cons_of_ne_nil hne'
  have hfirst : window.toList.head? = some c := by simp [hwindow, hcons]
  have hnot : c ∉ ['\\', '\n', '*', '_', '~'] := by
    intro hmem
    rcases hcontent c (by simp [hcons]) with hletter | rfl
    · simp only [List.mem_cons, List.not_mem_nil, or_false] at hmem
      rcases hmem with rfl | rfl | rfl | rfl | rfl <;> exact absurd hletter (by decide)
    · exact absurd hmem (by decide)
  have hchars : ∀ c ∈ window.toList, c.isAlpha = true ∨ c ∈ [' ', '*', '_', '~'] := by
    rw [hwindow]
    exact List.forall_mem_append.2 ⟨fun c hc => (hcontent c hc).imp_right (by simp [·]), hrest⟩
  have hordinary : ∀ c ∈ content.toList, ordinary.mem c = true := by
    intro c hc
    rcases hcontent c hc with hc | rfl
    · exact mem_ordinary_of_isAlpha hc
    · decide
  have hend : ∀ c ∈ rest.head?, ordinary.mem c = false := by
    intro c hc
    have hsign := hhead c hc
    simp only [List.mem_cons, List.not_mem_nil, or_false] at hsign
    rcases hsign with rfl | rfl | rfl <;> decide
  obtain ⟨captures, hmatch, hconsumed⟩ := exists_consumed_plain patternForms.text_isAnchored
    patternForms.text_items patternForms.text_ahead? hwindow hne' hordinary hend
    (fun hmem => (hchars _ hmem).elim (by decide) (by decide))
    (fun hmem => (hchars _ hmem).elim (by decide) (by decide))
  have hconsumed : captures.consumed = content := String.toList_inj.1 hconsumed
  have hover := Pattern.over_of_matchStart hmatch
  refine ⟨captures, ?_, hover, hconsumed⟩
  rw [buildFirst_text hfirst hnot hmatch, hconsumed]

end Inline

/-! ### Descents -/

/-- Descents through a window find a forest, wherever the window stands and whatever has been
consumed before it.  Nothing is found in a window that is empty. -/
def FindsIn (rules : List (Rule R T S)) (source : String) (state : S) (window : String)
    (forest : List (Node R T)) : Prop :=
  if window = "" then forest = []
  else ∀ offset last, ∃ depth last',
    descend rules source depth offset window last state = some (.whole forest last')

namespace FindsIn

variable {rules : List (Rule R T S)} {source window rest : String} {state : S}
  {forest : List (Node R T)} {spec : Spec R T S}

variable (rules source state) in
theorem empty : FindsIn rules source state "" [] := by simp [FindsIn]

/-- A descent goes on with what is not consumed. -/
theorem exists_descendRest (h : FindsIn rules source state rest forest) {captures : Captures}
    (hover : captures.Over window) (hwindow : window = captures.consumed ++ rest) (offset : Nat)
    (last : Option String) :
    ∃ depth last', descendRest (descend rules source depth) offset captures.size window state last =
      some (.whole forest last') := by
  obtain ⟨rest', hsplit, -, hslice⟩ := hover.split
  obtain rfl : rest' = rest := by simpa [hwindow] using hsplit.symm
  unfold FindsIn at h
  simp only [descendRest, Text.slice_of_slice? hslice, String.isEmpty_iff]
  split_ifs at h ⊢ with hrest
  · exact ⟨0, last, by rw [h]⟩
  · exact h _ last

/-- What is found in the span of a rule is put under its node, and what is found in the rest of the
window comes after it. -/
theorem cons {consumed : String} (hwindow : window = consumed ++ rest) (hne : window ≠ "")
    (hbuild : ∀ offset last, ∃ captures, buildFirst rules source offset window last state =
      .ok (captures, spec) ∧ captures.Over window ∧ captures.consumed = consumed)
    {below : List (Node R T)}
    (hbelow : ∀ offset last, ∃ depth last', spec.descendInner (descend rules source depth) offset
      window last = some (.whole below last'))
    (hrest : FindsIn rules source state rest forest) :
    FindsIn rules source state window (spec.root.addChildren below :: forest) := by
  rw [FindsIn, if_neg hne]
  intro offset last
  obtain ⟨captures, hbuilt, hover, hconsumed⟩ := hbuild offset last
  obtain ⟨depth, middle, hinner⟩ := hbelow offset captures.consumed
  obtain ⟨depth', last', hlater⟩ :=
    hrest.exists_descendRest hover (hconsumed ▸ hwindow) offset middle
  refine ⟨max depth depth' + 1, last', ?_⟩
  rw [descend_of_ok hbuilt,
    Spec.descendInner_mono (descend_mono (Nat.le_max_left depth depth')) hinner, Option.bind_some,
    Outcome.under, descendRest_mono (descend_mono (Nat.le_max_right depth depth')) hlater]
  rfl

/-- A finished node. -/
theorem terminal {consumed : String} (hwindow : window = consumed ++ rest) (hne : window ≠ "")
    {kind : Kind R T}
    (hbuild : ∀ offset last, ∃ captures, buildFirst rules source offset window last state =
      .ok (captures, .terminal (.leaf kind) state) ∧ captures.Over window ∧
        captures.consumed = consumed)
    (hrest : FindsIn rules source state rest forest) :
    FindsIn rules source state window (.leaf kind :: forest) :=
  cons hwindow hne hbuild (fun _ last => ⟨0, last, rfl⟩) hrest

/-- A node with a span to be parsed under it. -/
theorem nonterminal {before inner after : List Char} {root : Node R T}
    (hwindow : window = String.ofList (before ++ inner ++ after) ++ rest) (hne : inner ≠ [])
    (hbuild : ∀ offset last, ∃ captures, buildFirst rules source offset window last state =
      .ok (captures, .nonterminal root state ⟨byteSize before, byteSize (before ++ inner)⟩) ∧
        captures.Over window ∧ captures.consumed = String.ofList (before ++ inner ++ after))
    {below : List (Node R T)} (hbelow : FindsIn rules source state (String.ofList inner) below)
    (hrest : FindsIn rules source state rest forest) :
    FindsIn rules source state window (root.addChildren below :: forest) := by
  have hinner : String.ofList inner ≠ "" := by simpa using hne
  have hslice : Text.slice? window ⟨byteSize before, byteSize (before ++ inner)⟩ =
      some (String.ofList inner) := by
    rw [Text.byteSize_append]
    exact Text.slice?_of_toList (b := after ++ rest.toList) (by simp [hwindow])
  have hwindow' : window ≠ "" := by
    rintro rfl
    obtain ⟨-, hnil, -⟩ : before = [] ∧ inner = [] ∧ after = [] ∧ rest = "" := by
      simpa using congrArg String.toList hwindow.symm
    exact hne hnil
  refine cons hwindow hwindow' hbuild (fun offset last => ?_) hrest
  rw [FindsIn, if_neg hinner] at hbelow
  obtain ⟨depth, last', hdescend⟩ := hbelow (offset + byteSize before) last
  refine ⟨depth, last', ?_⟩
  rw [Spec.descendInner_of_slice? rfl hslice hinner]
  exact hdescend

/-- A source is parsed to what is found in it. -/
theorem parse_eq {account : Account R T} (haccounts : ∀ rule ∈ rules, rule.Accounts account)
    (h : FindsIn rules source state source forest) :
    (parse rules source state).value = .ok forest := by
  unfold FindsIn at h
  split_ifs at h with hsource
  · subst hsource h
    rfl
  · obtain ⟨depth, last, hdescend⟩ := h 0 none
    exact parse_value_of_descend (shortens_of_accounts haccounts)
      (keepsToWindow_of_accounts haccounts) hsource hdescend

end FindsIn

namespace Inline

variable [HasTextStyles T] {rest source : String} {state : S} {forest : List (Node R T)}

/-- Words and spaces up to a mark are found as text. -/
theorem findsIn_text {content : String} (hne : content ≠ "")
    (hcontent : ∀ c ∈ content.toList, c.isAlpha = true ∨ c = ' ')
    (hhead : ∀ c ∈ rest.toList.head?, c ∈ ['*', '_', '~'])
    (hchars : ∀ c ∈ rest.toList, c.isAlpha = true ∨ c ∈ [' ', '*', '_', '~'])
    (hrest : FindsIn rules source state rest forest) :
    FindsIn rules source state (content ++ rest) (.text content :: forest) :=
  .terminal rfl (by simp [hne])
    (exists_buildFirst_text String.toList_append hne hcontent hhead hchars source · · state) hrest

/-- What is found between the marks of a style is put under a node with that style. -/
theorem findsIn_style {s : TextStyle} {inner : String} (hinner : Enclosable s inner.toList)
    (hhead : s.sign ∉ rest.toList.head?) {below : List (Node R T)}
    (hbelow : FindsIn rules source state inner below)
    (hrest : FindsIn rules source state rest forest) :
    FindsIn rules source state (s.mark ++ inner ++ s.mark ++ rest)
      (.style [HasTextStyles.textStyle s] below :: forest) := by
  have hmark : s.mark = String.ofList s.signs := by rw [← s.toList_mark, String.ofList_toList]
  have hwindow : s.mark ++ inner ++ s.mark ++ rest =
      String.ofList (s.signs ++ inner.toList ++ s.signs) ++ rest := by
    simp [String.ofList_append, String.append_assoc, hmark]
  have hbuild (offset : Nat) (last : Option String) :
      ∃ captures, buildFirst rules source offset (s.mark ++ inner ++ s.mark ++ rest) last state =
        .ok (captures, .nonterminal (.style [HasTextStyles.textStyle s] [] : Node R T) state
          ⟨byteSize s.signs, byteSize (s.signs ++ inner.toList)⟩) ∧
        captures.Over (s.mark ++ inner ++ s.mark ++ rest) ∧
        captures.consumed = String.ofList (s.signs ++ inner.toList ++ s.signs) := by
    have hsplit : (s.mark ++ inner ++ s.mark ++ rest).toList =
        s.signs ++ inner.toList ++ s.signs ++ rest.toList := by simp [hwindow]
    obtain ⟨captures, hbuilt, hover, hconsumed⟩ :=
      exists_buildFirst_style (R := R) (T := T) hinner hsplit hhead source offset last state
    exact ⟨captures, hbuilt, hover, String.toList_inj.1 (by simpa using hconsumed)⟩
  exact .nonterminal hwindow hinner.ne_nil hbuild (by simpa using hbelow) hrest

end Inline

namespace Prose

variable [HasTextStyles T] {outer : List TextStyle} {mark : T → String}

/-- In prose that is written as inline markup its forest is found. -/
theorem findsIn (hmark : ∀ s, mark (HasTextStyles.textStyle s) = s.mark) (p : Prose outer)
    {lead : String} (hlead : lead = "" ∨ lead = " ") (source : String) (state : S) :
    FindsIn (Inline.rules : List (Rule R T S)) source state
      (Forest.written mark (p.forest lead : List (Node R T))) (p.forest lead) := by
  have hspace {lead : String} (hlead : lead = "" ∨ lead = " ") : ∀ c ∈ lead.toList, c = ' ' := by
    rcases hlead with rfl | rfl <;> simp
  induction p generalizing lead with
  | word w =>
    rw [forest, Forest.written, Node.written_text, Forest.written]
    refine Inline.findsIn_text (by simp [w.ne_empty]) ?_ (by simp) (by simp) (.empty ..)
    intro c hc
    rw [String.toList_append, List.mem_append] at hc
    exact hc.symm.imp (w.isAlpha c) (hspace hlead c)
  | styled w s fresh inner rest ihinner ihrest =>
    rw [forest, Forest.written, Node.written_text, Forest.written, Node.written_style, hmark]
    have hinner : (Forest.written mark (inner.forest "" : List (Node R T))).toList = inner.chars :=
      toList_written_forest hmark inner ""
    have hrest : (Forest.written mark (rest.forest " " : List (Node R T))).toList =
        [' '] ++ rest.chars := toList_written_forest hmark rest " "
    have hwindow : (s.mark ++ Forest.written mark (inner.forest "" : List (Node R T)) ++ s.mark ++
        Forest.written mark (rest.forest " " : List (Node R T))).toList =
          s.signs ++ inner.chars ++ s.signs ++ ([' '] ++ rest.chars) := by
      simp only [String.toList_append, s.toList_mark, hinner, hrest]
    have hchars := (styled w s fresh inner rest).mem_chars
    rw [chars, List.append_assoc, List.forall_mem_append] at hchars
    have hfirst : ∀ c ∈ (lead ++ w.text ++ " ").toList, c.isAlpha = true ∨ c = ' ' := by
      intro c hc
      simp only [String.toList_append, List.mem_append] at hc
      rcases hc with (hc | hc) | hc
      · exact .inr (hspace hlead c hc)
      · exact .inl (w.isAlpha c hc)
      · exact .inr (by simpa using hc)
    have hstyled := Inline.findsIn_style (hinner ▸ inner.enclosable)
      (by rw [hrest]; cases s <;> simp [TextStyle.sign]) (ihinner (.inl rfl)) (ihrest (.inr rfl))
    refine Inline.findsIn_text (by simp) hfirst ?_ (hwindow ▸ hchars.2) hstyled
    rw [hwindow]
    cases s <;> simp [TextStyle.signs, TextStyle.sign]

end Prose

namespace Inline

/-- Prose that is written as inline markup is read back as it was. -/
theorem parse_written [HasTextStyles T] {mark : T → String}
    (hmark : ∀ s, mark (HasTextStyles.textStyle s) = s.mark) (p : Prose []) (state : S) :
    (parse (rules : List (Rule R T S)) (Forest.written mark (p.forest "" : List (Node R T)))
      state).value = .ok (p.forest "") := by
  have hsource : Forest.written mark (p.forest "" : List (Node R T)) ≠ "" := by
    intro hempty
    have hchars := Prose.toList_written_forest (R := R) hmark p ""
    rw [hempty] at hchars
    exact p.chars_ne_nil (by simpa using hchars.symm)
  have haccounts := accounts_of_mem_rules (R := R) (T := T) (S := S) True
  have hface := Machine.facing_start (R := R) (T := T) state hsource
  have hfinds := p.findsIn (R := R) hmark (.inl rfl)
    (Forest.written mark (p.forest "" : List (Node R T))) state
  rw [FindsIn, if_neg hsource] at hfinds
  obtain ⟨depth, last', hdescend⟩ := hfinds 0 none
  have hreached := reached_of_descend (keepsToWindow_of_accounts haccounts) depth hdescend hface rfl
  exact (hreached.run_value rfl).2 _ (halts_stepsAllowed (shortens_of_accounts haccounts) _ state)

/-- The styles of inline markup themselves. -/
instance : HasTextStyles TextStyle := ⟨id⟩

/-- Text in italics within bold text. -/
theorem parse_written_bold_italics :
    (∀ s : TextStyle, (HasTextStyles.textStyle s : TextStyle).mark = s.mark) ∧
      (parse (rules : List (Rule Unit TextStyle Unit)) "a **b *c* d** e" ()).value =
        .ok [.text "a ", .style [.bold] [.text "b ", .style [.italic] [.text "c"], .text " d"],
          .text " e"] := by
  have hmark (s : TextStyle) : (HasTextStyles.textStyle s : TextStyle).mark = s.mark := rfl
  have h := parse_written (R := Unit) hmark
    (.styled ⟨"a", by simp, by simp⟩ .bold (by decide)
      (.styled ⟨"b", by simp, by simp⟩ .italic (by decide)
        (.word ⟨"c", by simp, by simp⟩) (.word ⟨"d", by simp, by simp⟩))
      (.word ⟨"e", by simp, by simp⟩)) ()
  refine ⟨hmark, ?_⟩
  simpa [Prose.forest, Forest.written, HasTextStyles.textStyle, TextStyle.mark] using h

end Inline

end RuledMarkup
