import RuledMarkup.Inline.Rules
import RuledMarkup.Proofs.Node.Text
import RuledMarkup.Proofs.Parse.Accounts
import RuledMarkup.Proofs.Pattern.Groups

/-!
# Markup around text

The text of a parsed document is the source without some of its markup characters.  Each rule of
inline markup leaves out characters around a group only, and those are markup characters.

## Main definitions

* `markupChars` : the characters that markup consists of.
* `Account.markup` : a forest has the text of its window apart from markup characters.
* `Pattern.isMarked` : a group of a pattern stands between markup characters.

## Main results

* `Spec.accounts_markup_of_frames` : what a rule with a span leaves out stands around the span.
* `Inline.accounts_of_mem_rules` : the rules of inline markup leave out markup characters only.
* `Inline.catches_of_mem` : some rule of inline markup matches every window.
-/

namespace RuledMarkup

open Text (byteSize)

variable {R T S : Type}

/-! ### Markup characters -/

/-- The characters that markup consists of. -/
def markupChars : List Char := [' ', '\t', '\n', '\\', '*', '_', '~', '#', '=', '-', '>']

/-- The characters that are no markup characters. -/
def unmarked (chars : List Char) : List Char := chars.filter (· ∉ markupChars)

@[simp] theorem unmarked_append (a b : List Char) :
    unmarked (a ++ b) = unmarked a ++ unmarked b :=
  List.filter_append ..

theorem unmarked_eq_nil {chars : List Char} (h : ∀ c ∈ chars, c ∈ markupChars) :
    unmarked chars = [] := by
  rw [unmarked, List.filter_eq_nil_iff]
  intro c hc
  simpa using h c hc

/-- The second text is what is left of the first one without some markup characters. -/
structure LeavesOut (chars left : List Char) : Prop where
  sublist : left.Sublist chars
  unmarked_eq : unmarked chars = unmarked left

namespace LeavesOut

variable {a b x y : List Char}

theorem refl (a : List Char) : LeavesOut a a := ⟨.refl a, rfl⟩

theorem append (h : LeavesOut a x) (h' : LeavesOut b y) : LeavesOut (a ++ b) (x ++ y) :=
  ⟨h.sublist.append h'.sublist, by rw [unmarked_append, unmarked_append, h.unmarked_eq,
    h'.unmarked_eq]⟩

/-- Markup characters may be left out. -/
theorem nil (h : ∀ c ∈ a, c ∈ markupChars) : LeavesOut a [] :=
  ⟨List.nil_sublist a, by rw [unmarked_eq_nil h]; rfl⟩

/-- Markup characters around a text may be left out. -/
theorem around {before inner after left : List Char}
    (haround : ∀ c ∈ before ++ after, c ∈ markupChars) (h : LeavesOut inner left) :
    LeavesOut (before ++ inner ++ after) left := by
  obtain ⟨hbefore, hafter⟩ := List.forall_mem_append.1 haround
  simpa using ((nil hbefore).append h).append (nil hafter)

/-- One of several markup characters may be left over. -/
theorem singleton {c : Char} (hc : c ∈ a) (h : ∀ d ∈ a, d ∈ markupChars) : LeavesOut a [c] := by
  refine ⟨List.singleton_sublist.2 hc, ?_⟩
  rw [unmarked_eq_nil h, unmarked_eq_nil fun d hd => ?_]
  obtain rfl := List.mem_singleton.1 hd
  exact h d hc

end LeavesOut

/-! ### Forests -/

/-- The text of a forest is that of its window without some markup characters.  If the parse stops
in a window, then the text lacks what comes after that; `stops` says whether this may happen. -/
def Account.markup (R T : Type) (stops : Prop) : Account R T where
  whole window forest := LeavesOut window.toList (Forest.textContent forest).toList
  part window forest := stops ∧ (Forest.textContent forest).toList.Sublist window.toList
  whole_nil := by
    rw [Forest.textContent_nil]
    exact .refl _
  whole_append := by
    intro x y a b ha hb
    rw [Forest.textContent_append, String.toList_append, String.toList_append]
    exact ha.append hb
  part_append := by
    rintro x y a b ha ⟨hstops, hb⟩
    rw [Forest.textContent_append, String.toList_append, String.toList_append]
    exact ⟨hstops, ha.sublist.append hb⟩
  part_left := by
    rintro x a y ⟨hstops, ha⟩
    rw [String.toList_append]
    exact ⟨hstops, ha.trans (List.sublist_append_left ..)⟩

variable {stops : Prop} {window : String} {captures : Captures} {state : S}

/-- A finished text. -/
theorem Spec.accounts_markup_text {consumed content : String}
    (h : LeavesOut consumed.toList content.toList) :
    (Spec.terminal (.text content) state : Spec R T S).Accounts (.markup R T stops) window
      consumed := by
  refine Spec.accounts_terminal _ ?_
  simpa [Account.markup] using h

/-- A rule with a span leaves out what stands around the span. -/
theorem Spec.accounts_markup_of_frames {group : Nat} {before inner after : List Char}
    (hframes : captures.Frames group before inner after) (hover : captures.Over window)
    (hchars : ∀ c ∈ before ++ after, c ∈ markupChars) (haround : before ++ after ≠ [])
    (hstops : inner = [] → stops) {root : Node R T} (hcontent : root.content? = none)
    (hchildren : root.children = []) :
    (Spec.nonterminal root state ⟨byteSize before, byteSize (before ++ inner)⟩).Accounts
      (.markup R T stops) window captures.consumed := by
  have hlt := hframes.utf8ByteSize_lt hover haround
  rw [← hover.utf8ByteSize_consumed] at hlt
  have htext (below : List (Node R T)) :
      Forest.textContent [root.addChildren below] = Forest.textContent below := by
    rw [Forest.textContent_cons, Node.textContent_addChildren hcontent hchildren,
      Forest.textContent_nil, String.append_empty]
  refine Spec.accounts_nonterminal _ (hframes.slice?_eq hover) hlt ?_ ?_ ?_
  · intro below hbelow
    simp only [Account.markup, htext, hframes.toList_consumed, String.toList_ofList] at hbelow ⊢
    exact hbelow.around hchars
  · rintro below ⟨hstop, hbelow⟩
    refine ⟨hstop, ?_⟩
    rw [String.toList_ofList] at hbelow
    rw [htext, hframes.toList_consumed]
    exact hbelow.trans ((List.sublist_append_right ..).trans (List.sublist_append_left ..))
  · intro hempty
    refine ⟨hstops (by simpa using hempty), ?_⟩
    rw [← root.addChildren_nil, htext, Forest.textContent_nil]
    exact List.nil_sublist _

/-! ### Rules -/

/-- Does a group stand between markup characters in every strand? -/
def Pattern.isMarked (pattern : Pattern) (group : Nat) : Bool :=
  pattern.isCut && group ≠ 0 && pattern.ahead? ≠ some group &&
    pattern.regex.strands.all fun strand =>
      isFramed markupChars group (pattern.consuming strand)

/-- A marked group stands between markup characters. -/
theorem Pattern.exists_frames_of_isMarked {pattern : Pattern} {group : Nat}
    (hpattern : pattern.isMarked group = true) (h : pattern.matchStart window = some captures) :
    captures.Over window ∧ ∃ before inner after, captures.Frames group before inner after ∧
      (∀ c ∈ before ++ after, c ∈ markupChars) ∧ before ++ after ≠ [] ∧
      (pattern.fills group = true → inner ≠ []) := by
  simp only [isMarked, Bool.and_eq_true, decide_eq_true_eq] at hpattern
  obtain ⟨⟨⟨hcut, hgroup⟩, hahead⟩, hstrands⟩ := hpattern
  obtain ⟨strand, hmem, bindings, hconsumed⟩ := exists_consumed hcut h
  obtain ⟨before, inner, after, hframes, hchars, haround, hfilled⟩ :=
    hconsumed.exists_frames (List.all_eq_true.1 hstrands strand hmem) hgroup hahead
  exact ⟨hconsumed.captures_over, before, inner, after, hframes, hchars, haround,
    fun hfills => hfilled (List.all_eq_true.1 hfills strand hmem)⟩

/-- Is either of two groups in every strand, between markup characters and not empty? -/
def Pattern.marksEither (pattern : Pattern) (first second : Nat) : Bool :=
  pattern.isCut && first ≠ 0 && second ≠ 0 && pattern.ahead? ≠ some first &&
    pattern.ahead? ≠ some second && pattern.regex.strands.all fun strand =>
      let parts := pattern.consuming strand
      isFramed markupChars first parts && isFilled first parts ||
        isFramed markupChars second parts && isFilled second parts &&
          first ∉ Regex.indicesEach parts

/-- Of two groups either the first one stands between markup characters, or the second one does and
the first one takes no part. -/
theorem Pattern.exists_frames_of_marksEither {pattern : Pattern} {first second : Nat}
    (hpattern : pattern.marksEither first second = true)
    (h : pattern.matchStart window = some captures) :
    captures.Over window ∧ ∃ group before inner after,
      (group = first ∨ group = second ∧ captures.range? first = none) ∧
      captures.Frames group before inner after ∧
      (∀ c ∈ before ++ after, c ∈ markupChars) ∧ before ++ after ≠ [] ∧ inner ≠ [] := by
  simp only [marksEither, Bool.and_eq_true, decide_eq_true_eq] at hpattern
  obtain ⟨⟨⟨⟨⟨hcut, hfirst⟩, hsecond⟩, hahead⟩, hahead'⟩, hstrands⟩ := hpattern
  obtain ⟨strand, hmem, bindings, hconsumed⟩ := exists_consumed hcut h
  have hstrand := List.all_eq_true.1 hstrands strand hmem
  simp only [Bool.or_eq_true, Bool.and_eq_true, decide_eq_true_eq] at hstrand
  refine ⟨hconsumed.captures_over, ?_⟩
  rcases hstrand with ⟨hframed, hfilled⟩ | ⟨⟨hframed, hfilled⟩, hnot⟩
  · obtain ⟨before, inner, after, hframes, hchars, haround, hinner⟩ :=
      hconsumed.exists_frames hframed hfirst hahead
    exact ⟨first, before, inner, after, .inl rfl, hframes, hchars, haround, hinner hfilled⟩
  · obtain ⟨before, inner, after, hframes, hchars, haround, hinner⟩ :=
      hconsumed.exists_frames hframed hsecond hahead'
    obtain ⟨post, -, hreads⟩ := hconsumed.reads
    have hnone : captures.range? first = none := by
      rw [hconsumed.range?_eq hfirst hahead]
      exact Regex.lookup_eq_none hreads hnot
    exact ⟨second, before, inner, after, .inr ⟨rfl, hnone⟩, hframes, hchars, haround,
      hinner hfilled⟩

/-- Are there only markup characters in every strand, and a line end? -/
def Pattern.isBlank (pattern : Pattern) : Bool :=
  pattern.isCut && pattern.regex.strands.all fun strand =>
    (pattern.consuming strand).all (·.isWithin markupChars) &&
      .set (.one '\n') ∈ pattern.consuming strand

theorem Pattern.consumed_of_isBlank {pattern : Pattern} (hpattern : pattern.isBlank = true)
    (h : pattern.matchStart window = some captures) :
    captures.Over window ∧ '\n' ∈ captures.consumed.toList ∧
      ∀ c ∈ captures.consumed.toList, c ∈ markupChars := by
  obtain ⟨hcut, hstrands⟩ := Bool.and_eq_true_iff.1 hpattern
  obtain ⟨strand, hmem, bindings, hconsumed⟩ := exists_consumed hcut h
  obtain ⟨hwithin, hend⟩ := Bool.and_eq_true_iff.1 (List.all_eq_true.1 hstrands strand hmem)
  obtain ⟨post, -, hreads⟩ := hconsumed.reads
  exact ⟨hconsumed.captures_over, Regex.mem_of_mem_parts (of_decide_eq_true hend) hreads,
    Regex.forall_mem_of_all_isWithin hwithin hreads⟩

/-- What stands around a group makes a match longer than nothing. -/
theorem Captures.Frames.size_pos {group : Nat} {before inner after : List Char}
    (hframes : captures.Frames group before inner after) (hover : captures.Over window)
    (haround : before ++ after ≠ []) : 0 < captures.size :=
  Nat.lt_of_le_of_lt (Nat.zero_le _) (hframes.utf8ByteSize_lt hover haround)

namespace Rule

theorem Accounts.atLineStart {account : Account R T} {rule : Rule R T S}
    (h : rule.Accounts account) : rule.atLineStart.Accounts account := by
  intro window last state captures hmatch
  exact h (tryMatch_of_atLineStart hmatch)

/-- A rule that makes text of what its pattern consumes leaves out nothing. -/
theorem accounts_text {pattern : Pattern} (hpattern : pattern.isAdvancing = true) :
    (text pattern : Rule R T S).Accounts (.markup R T stops) := by
  intro window last state captures hmatch
  exact ⟨Pattern.over_of_matchStart hmatch, Pattern.size_pos_of_isAdvancing hpattern hmatch, _, rfl,
    Spec.accounts_markup_text (.refl _)⟩

/-- What a rule that styles the first group of its pattern makes of a match. -/
theorem build_style (pattern : Pattern) (styles : List T) (state : S)
    {before inner after : List Char} (hframes : captures.Frames 1 before inner after) :
    ((style pattern styles : Rule R T S).build captures state).value =
      .ok (.nonterminal (.style styles []) state
        ⟨byteSize before, byteSize (before ++ inner)⟩) := by
  simp [style, matching, Logged.quiet, Captures.span_of_range? hframes.range?_eq, Except.map]

/-- A rule that styles the first group of its pattern leaves out what stands around the group. -/
theorem accounts_style {pattern : Pattern} (hpattern : pattern.isMarked 1 = true)
    (hfills : pattern.fills 1 = true) (styles : List T) :
    (style pattern styles : Rule R T S).Accounts (.markup R T stops) := by
  intro window last state captures hmatch
  obtain ⟨hover, before, inner, after, hframes, hchars, haround, hfilled⟩ :=
    Pattern.exists_frames_of_isMarked hpattern hmatch
  exact ⟨hover, hframes.size_pos hover haround, _, build_style pattern styles state hframes,
    Spec.accounts_markup_of_frames hframes hover hchars haround
      (fun hempty => (hfilled hfills hempty).elim) rfl rfl⟩

end Rule

namespace Inline

/-- What the strands of the inline patterns show. -/
structure PatternShapes : Prop where
  escape_isMarked : escape.isMarked 1 = true
  newline_isBlank : newline.isBlank = true
  newline_isAdvancing : newline.isAdvancing = true
  italics_marksEither : italics.marksEither 2 1 = true
  styled_isMarked : ∀ pattern ∈ [bold, underline, strikethrough], pattern.isMarked 1 = true
  styled_fills : ∀ pattern ∈ [bold, underline, strikethrough], pattern.fills 1 = true
  text_isAdvancing : text.isAdvancing = true
  text_isCatchAll : text.isCatchAll = true

theorem patternShapes : PatternShapes := by constructor <;> decide +kernel

variable (stops) in
theorem accounts_escapeRule : (escapeRule : Rule R T S).Accounts (.markup R T stops) := by
  intro window last state captures hmatch
  obtain ⟨hover, before, inner, after, hframes, hchars, haround, -⟩ :=
    Pattern.exists_frames_of_isMarked patternShapes.escape_isMarked hmatch
  refine ⟨hover, hframes.size_pos hover haround, .terminal (.text (String.ofList inner)) state, ?_,
    Spec.accounts_markup_text ?_⟩
  · simp [escapeRule, Rule.matching, Logged.quiet, hframes.group_eq hover, Except.map]
  · rw [hframes.toList_consumed, String.toList_ofList]
    exact .around hchars (.refl _)

variable (stops) in
theorem accounts_newlineRule : (newlineRule : Rule R T S).Accounts (.markup R T stops) := by
  refine Rule.Accounts.atLineStart ?_
  intro window last state captures hmatch
  obtain ⟨hover, hend, hchars⟩ := Pattern.consumed_of_isBlank patternShapes.newline_isBlank hmatch
  have hsize := Pattern.size_pos_of_isAdvancing patternShapes.newline_isAdvancing hmatch
  refine ⟨hover, hsize, _, rfl, Spec.accounts_markup_text ?_⟩
  exact .singleton hend hchars

variable (stops) in
theorem accounts_textRule : (textRule : Rule R T S).Accounts (.markup R T stops) :=
  Rule.accounts_text patternShapes.text_isAdvancing

/-- A rule that puts a style around the first group of its pattern. -/
theorem accounts_styleRule {pattern : Pattern} (h : pattern ∈ [bold, underline, strikethrough])
    (styles : List T) : (Rule.style pattern styles : Rule R T S).Accounts (.markup R T stops) :=
  Rule.accounts_style (patternShapes.styled_isMarked pattern h)
    (patternShapes.styled_fills pattern h) styles

variable [HasTextStyles T]

/-- What the rule for italics makes of a match: the second group is styled, or the first one if the
second one has not taken part. -/
theorem build_italicsRule (state : S) {group : Nat} {before inner after : List Char}
    (hgroup : group = 2 ∨ group = 1 ∧ captures.range? 2 = none)
    (hframes : captures.Frames group before inner after) (hinner : inner ≠ []) :
    ((italicsRule : Rule R T S).build captures state).value =
      .ok (.nonterminal (.style [HasTextStyles.textStyle .italic] []) state
        ⟨byteSize before, byteSize (before ++ inner)⟩) := by
  have hspan : (⟨byteSize before, byteSize (before ++ inner)⟩ : Text.ByteRange).isEmpty =
      false := by
    have : byteSize inner ≠ 0 := fun hzero => hinner (Text.byteSize_eq_zero_iff.1 hzero)
    rw [Text.ByteRange.isEmpty_eq_false_iff, Text.byteSize_append]
    simp only
    omega
  rcases hgroup with rfl | ⟨rfl, hnone⟩
  · simp [italicsRule, Rule.matching, Logged.quiet, hframes.range?_eq, hspan, bind, Except.bind,
      -Text.byteSize_append]
  · simp [italicsRule, Rule.matching, Logged.quiet, hnone,
      Captures.span_of_range? hframes.range?_eq, bind, Except.bind]

/-- Whatever group the rule for italics styles, it makes one node of it. -/
theorem exists_of_build_italicsRule {spec : Spec R T S}
    (h : ((italicsRule : Rule R T S).build captures state).value = .ok spec) :
    ∃ span, spec = .nonterminal (.style [HasTextStyles.textStyle .italic] []) state span := by
  simp only [italicsRule, Rule.matching, Logged.quiet] at h
  split at h
  · split_ifs at h
    · obtain ⟨span, -, hspec⟩ := exists_of_bind_eq_ok h
      exact ⟨span, (Except.ok.inj hspec).symm⟩
    · exact ⟨_, (Except.ok.inj h).symm⟩
  · obtain ⟨span, -, hspec⟩ := exists_of_bind_eq_ok h
    exact ⟨span, (Except.ok.inj hspec).symm⟩

variable (stops) in
theorem accounts_italicsRule : (italicsRule : Rule R T S).Accounts (.markup R T stops) := by
  intro window last state captures hmatch
  obtain ⟨hover, group, before, inner, after, hgroup, hframes, hchars, haround, hinner⟩ :=
    Pattern.exists_frames_of_marksEither patternShapes.italics_marksEither hmatch
  exact ⟨hover, hframes.size_pos hover haround, _, build_italicsRule state hgroup hframes hinner,
    Spec.accounts_markup_of_frames hframes hover hchars haround
      (fun hempty => (hinner hempty).elim) rfl rfl⟩

/-- The rules of inline markup leave out markup characters only, and the spans that they ask for are
not empty. -/
theorem accounts_of_mem_rules (stops : Prop) :
    ∀ rule ∈ (rules : List (Rule R T S)), rule.Accounts (.markup R T stops) := by
  intro rule hrule
  simp only [rules, markupRules, List.mem_append, List.mem_cons, List.not_mem_nil,
    or_false] at hrule
  rcases hrule with (rfl | rfl | rfl | rfl | rfl | rfl) | rfl
  · exact accounts_escapeRule stops
  · exact accounts_newlineRule stops
  · exact accounts_styleRule (by simp) _
  · exact accounts_styleRule (by simp) _
  · exact accounts_italicsRule stops
  · exact accounts_styleRule (by simp) _
  · exact accounts_textRule stops

omit [HasTextStyles T] in
/-- With the rule for plain text, some rule matches every window. -/
theorem catches_of_mem {rules : List (Rule R T S)} (h : textRule ∈ rules) : Catches rules :=
  fun _ _ hwindow => ⟨_, h, Pattern.isSome_matchStart patternShapes.text_isCatchAll hwindow⟩

end Inline

end RuledMarkup
