import RuledMarkup.Proofs.Inline.RoundTrip
import RuledMarkup.Proofs.Inline.TextEnds
import RuledMarkup.Proofs.Regex.Preferred

/-!
# Escaped text

Text of one line, in which a backslash stands before every character that may be markup, is read
back as text and as nothing else.  Plain text may end anywhere among letters, digits and white
space, but it ends at the next backslash at the latest, so an escape is never cut in two.

## Main definitions

* `Inline.isLiteral` : letters, digits and white space need no escape.
* `Inline.escaped` : a text with its escapes.

## Main results

* `Inline.exists_frames_escape` : an escape is matched with the character behind its backslash.
* `Inline.exists_findsIn_escaped` : in escaped text texts are found that make up what was escaped.
* `Inline.parse_escaped` : escaped text is read back.
-/

namespace RuledMarkup.Inline

open Text (byteSize)

variable {R T S : Type} {c : Char} {chars rest : List Char}

/-! ### Escapes -/

/-- Letters and digits of ASCII, and white space. -/
def isLiteral (c : Char) : Bool := c.isAlphanum || Text.isSpace c

/-- A backslash before every character that is neither a letter or digit nor white space. -/
def escapedChars (chars : List Char) : List Char :=
  chars.flatMap fun c => if isLiteral c then [c] else ['\\', c]

/-- The text with a backslash before every character that is neither a letter or digit nor white
space. -/
def escaped (content : String) : String := String.ofList (escapedChars content.toList)

theorem escapedChars_append (a b : List Char) :
    escapedChars (a ++ b) = escapedChars a ++ escapedChars b :=
  List.flatMap_append

theorem escapedChars_cons_of_not_isLiteral (hc : isLiteral c = false) (chars : List Char) :
    escapedChars (c :: chars) = '\\' :: c :: escapedChars chars := by
  simp [escapedChars, hc]

theorem escapedChars_of_isLiteral (h : ∀ c ∈ chars, isLiteral c = true) :
    escapedChars chars = chars := by
  induction chars with
  | nil => rfl
  | cons c chars ih =>
    obtain ⟨hc, hchars⟩ := List.forall_mem_cons.1 h
    rw [escapedChars, List.flatMap_cons, if_pos hc, ← escapedChars, ih hchars]
    rfl

/-- Plain text may end where the first escape begins. -/
theorem exists_stopsBefore_escapedChars (chars : List Char) :
    ∃ a b, chars = a ++ b ∧ (∀ c ∈ a, isLiteral c = true) ∧ StopsBefore (escapedChars b) := by
  refine ⟨chars.takeWhile isLiteral, chars.dropWhile isLiteral,
    List.takeWhile_append_dropWhile.symm, List.all_eq_true.1 List.all_takeWhile, ?_⟩
  have hhead := List.head?_dropWhile_not isLiteral chars
  cases hrest : chars.dropWhile isLiteral with
  | nil => exact stopsBefore_nil
  | cons c rest =>
    rw [hrest] at hhead
    rw [escapedChars_cons_of_not_isLiteral (by simpa using hhead)]
    exact stopsBefore_cons (by decide) _

/-- What can be escaped. -/
def escapable : CharSet :=
  .compl
    (.union (.union (.union (.range '0' '9') (.range 'A' 'Z')) (.range 'a' 'z')) .space)

theorem mem_escapable (c : Char) : escapable.mem c = !isLiteral c := by
  delta isLiteral Char.isAlphanum Char.isAlpha Char.isUpper Char.isLower Char.isDigit
  simp only [escapable, CharSet.mem, Char.le_def, Bool.decide_and, ge_iff_le]
  ac_rfl

/-- A backslash and a character that is put in a group. -/
def escapeParts : List Regex :=
  [.look .start, .set (.one '\\'), .group 1 none (.set escapable)]

/-- What the written pattern is. -/
structure EscapeForms : Prop where
  isAnchored : escape.regex.isAnchored = true
  items_eq : escape.regex.items = escapeParts
  ahead?_eq : escape.ahead? = none

theorem escapeForms : EscapeForms := by constructor <;> decide +kernel

/-- A backslash and a character that is neither a letter or digit nor white space are an escape of
that character. -/
theorem exists_frames_escape {pattern : Pattern} (hanchored : pattern.regex.isAnchored = true)
    (hitems : pattern.regex.items = escapeParts) (hahead : pattern.ahead? = none) {window : String}
    (hwindow : window.toList = '\\' :: c :: rest) (hc : isLiteral c = false) :
    ∃ captures, pattern.matchStart window = some captures ∧ captures.Frames 1 ['\\'] [c] [] := by
  have hstart : (Regex.look .start).Prefers [] [] ('\\' :: c :: rest) [] := Regex.prefers_look rfl
  have hslash : (Regex.set (.one '\\')).Prefers [] ['\\'] (c :: rest) [] := Regex.prefers_set rfl
  have hchar : (Regex.set escapable).Prefers ['\\'] [c] rest [] :=
    Regex.prefers_set (by rw [mem_escapable, hc]; rfl)
  have hprefers : Regex.PrefersEach escapeParts [] ['\\', c] rest
      [(1, ⟨byteSize ['\\'], byteSize (['\\'] ++ [c])⟩)] :=
    ⟨[], ['\\', c], [], _, rfl, rfl, hstart, ['\\'], [c], [], _, rfl, rfl, hslash,
      [c], [], _, [], rfl, rfl, hchar.group 1 none, rfl, rfl⟩
  obtain ⟨stop, hstop, hreads, hmatch⟩ :=
    Pattern.exists_preferred hanchored hitems hwindow hprefers
  have hsplit : window.toList = ['\\'] ++ [c] ++ [] ++ rest := hwindow
  refine ⟨_, hmatch, Pattern.frames_captures hreads Nat.one_ne_zero rfl hsplit ?_⟩
  rw [Pattern.size_of_ahead?_eq_none hahead, hstop.offset_eq]
  rfl

/-- Text that begins with a character that needs no escape ends among such characters. -/
theorem exists_consumed_literal (hc : isLiteral c = true) {window : String}
    (hwindow : window.toList = escapedChars (c :: chars)) :
    ∃ captures x rest, text.matchStart window = some captures ∧
      captures.consumed.toList = c :: x ∧ chars = x ++ rest ∧
      window.toList = c :: x ++ escapedChars rest := by
  obtain ⟨a, b, rfl, ha, hstops⟩ := exists_stopsBefore_escapedChars chars
  rw [← List.cons_append, escapedChars_append,
    escapedChars_of_isLiteral (List.forall_mem_cons.2 ⟨hc, ha⟩)] at hwindow
  obtain ⟨captures, x, post, hmatch, hconsumed, hsplit, -, hle⟩ :=
    exists_consumed_text_le hwindow rfl hstops
  obtain ⟨y, rfl⟩ : x <+: a := List.prefix_of_prefix_length_le ⟨_, hsplit.symm⟩ ⟨_, rfl⟩ hle
  refine ⟨captures, x, y ++ b, hmatch, hconsumed, List.append_assoc .., ?_⟩
  rw [hwindow, escapedChars_append,
    escapedChars_of_isLiteral fun d hd => ha d (List.mem_append_right x hd)]
  simp

/-! ### What is found -/

variable [HasTextStyles T] {source : String} {state : S} {forest : List (Node R T)}

/-- The character of an escape is found as text. -/
theorem findsIn_escape (hc : isLiteral c = false)
    (hrest : FindsIn rules source state (String.ofList rest) forest) :
    FindsIn rules source state (String.ofList ('\\' :: c :: rest))
      (.text (String.ofList [c]) :: forest) := by
  have hwindow : String.ofList ('\\' :: c :: rest) =
      String.ofList ['\\', c] ++ String.ofList rest := by
    rw [← String.ofList_append]
    rfl
  obtain ⟨captures, hmatch, hframes⟩ := exists_frames_escape escapeForms.isAnchored
    escapeForms.items_eq escapeForms.ahead?_eq (String.toList_ofList ..) hc
  have hover := Pattern.over_of_matchStart hmatch
  refine .terminal hwindow (by simp) (fun offset last => ⟨captures, ?_, hover, ?_⟩) hrest
  · refine buildFirst_cons hmatch (hframes.size_pos hover (by simp)) ?_
    simp [escapeRule, Rule.matching, Logged.quiet, hframes.group_eq hover, Except.map, Node.text]
  · exact String.toList_inj.1 (by simpa using hframes.toList_consumed)

/-- Where a character stands that needs no escape, some of such characters are found as text, and
what comes after them is left. -/
theorem exists_findsIn_literal (hc : isLiteral c = true) (hline : c ≠ '\n') (chars : List Char) :
    ∃ x rest, chars = x ++ rest ∧ ∀ {source : String} {state : S} {forest : List (Node R T)},
      FindsIn rules source state (String.ofList (escapedChars rest)) forest →
        FindsIn rules source state (String.ofList (escapedChars (c :: chars)))
          (.text (String.ofList (c :: x)) :: forest) := by
  obtain ⟨captures, x, rest, hmatch, hconsumed, rfl, hsplit⟩ :=
    exists_consumed_literal hc (String.toList_ofList (l := escapedChars (c :: chars)))
  rw [String.toList_ofList] at hsplit
  refine ⟨x, rest, rfl, fun {source state forest} hrest => ?_⟩
  have hnot : c ∉ ['\\', '\n', '*', '_', '~'] := by
    intro hmem
    simp only [List.mem_cons, List.not_mem_nil, or_false] at hmem
    rcases hmem with rfl | rfl | rfl | rfl | rfl
    · exact absurd hc (by decide)
    · exact hline rfl
    all_goals exact absurd hc (by decide)
  have hconsumed : captures.consumed = String.ofList (c :: x) :=
    String.toList_inj.1 (by simpa using hconsumed)
  rw [hsplit] at hmatch ⊢
  refine .terminal (String.ofList_append ..) (by simp) (fun offset last =>
    ⟨captures, ?_, Pattern.over_of_matchStart hmatch, hconsumed⟩) hrest
  rw [buildFirst_text (by simp) hnot hmatch, hconsumed, Node.text]

/-- In escaped text texts are found that make up what was escaped.  The induction is on the number
of characters, of which text takes several at once. -/
theorem exists_findsIn_escaped (hline : '\n' ∉ chars) (source : String) (state : S) :
    ∃ texts : List String,
      FindsIn (rules : List (Rule R T S)) source state (String.ofList (escapedChars chars))
        (texts.map .text) ∧ (String.join texts).toList = chars := by
  induction hlength : chars.length using Nat.strongRecOn generalizing chars with
  | ind n ih =>
    subst hlength
    cases chars with
    | nil => exact ⟨[], .empty .., rfl⟩
    | cons c chars =>
      rw [List.mem_cons, not_or] at hline
      by_cases hc : isLiteral c = true
      · obtain ⟨x, rest, rfl, hfinds⟩ := exists_findsIn_literal (R := R) (T := T) (S := S) hc
          (Ne.symm hline.1) chars
        have hshorter : rest.length < (c :: (x ++ rest)).length := by
          rw [List.length_cons, List.length_append]
          omega
        obtain ⟨texts, hrest, hjoin⟩ := ih rest.length hshorter
          (fun hmem => hline.2 (by simp [hmem])) rfl
        exact ⟨String.ofList (c :: x) :: texts, hfinds hrest, by simp [String.join_cons, hjoin]⟩
      · obtain ⟨texts, hrest, hjoin⟩ := ih chars.length (by simp) hline.2 rfl
        refine ⟨String.ofList [c] :: texts, ?_, by simp [String.join_cons, hjoin]⟩
        rw [escapedChars_cons_of_not_isLiteral (Bool.eq_false_iff.2 hc)]
        exact findsIn_escape (Bool.eq_false_iff.2 hc) hrest

/-- Text of one line is read back as it was if it is escaped, and as text only. -/
theorem parse_escaped (content : String) (hline : '\n' ∉ content.toList) (state : S) :
    ∃ forest, (parse (rules : List (Rule R T S)) (escaped content) state).value = .ok forest ∧
      (∀ node ∈ forest, ∃ piece, node = .text piece) ∧ Forest.textContent forest = content := by
  obtain ⟨texts, hfinds, hjoin⟩ :=
    exists_findsIn_escaped (R := R) (T := T) hline (escaped content) state
  refine ⟨texts.map .text, hfinds.parse_eq (accounts_of_mem_rules True), ?_, ?_⟩
  · simp
  · exact String.toList_inj.1 (by simpa [Forest.textContent_eq_join, Function.comp_def] using hjoin)

/-- Stars, an underscore and a colon that are escaped. -/
theorem parse_escaped_signs :
    '\n' ∉ "*a* b_c: d".toList ∧
      ∃ forest, (parse (rules : List (Rule Unit TextStyle Unit)) "\\*a\\* b\\_c\\: d" ()).value =
          .ok forest ∧ (∀ node ∈ forest, ∃ piece, node = .text piece) ∧
        Forest.textContent forest = "*a* b_c: d" := by
  have hline : '\n' ∉ "*a* b_c: d".toList := by decide
  have hescaped : escaped "*a* b_c: d" = "\\*a\\* b\\_c\\: d" := by decide +kernel
  exact ⟨hline, hescaped ▸ parse_escaped "*a* b_c: d" hline ()⟩

end RuledMarkup.Inline
