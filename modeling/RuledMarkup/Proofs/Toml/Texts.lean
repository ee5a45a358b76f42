import Mathlib.Data.List.TakeWhile
import RuledMarkup.Toml.Text

/-!
# Texts are read back

A text is written in the form that is chosen for it, and read back from there, whatever characters
it has.  What may follow it is anything but a further quote.

In the forms on several lines quotes stand as they are if there are not too many of them in a row.
The reader takes up to two quotes before the closing ones for quotes of the text, so what it does at
a quote depends on how the run of quotes goes on.

## Main definitions

* `Form.Holds` : a form can hold a text.

## Main results

* `readBasic_writeBasic`, `readBasic_writeBasic_lines` : a basic text is read back.
* `readLiteral_append`, `readLiteral_append_lines` : a literal text is read back.
* `readText?_writeText` : every text is read back from the form in which it is written.
-/

namespace RuledMarkup.Toml

variable {q c : Char} {cs written rest : List Char}

/-! ### Characters -/

theorem consText_some (c : Char) (text rest : List Char) :
    consText c (some (text, rest)) = some (c :: text, rest) := rfl

theorem toNat_lt_of_not_isPrintable (hc : isPrintable c = false) : c.toNat < 128 := by
  simp only [isPrintable, Bool.or_eq_false_iff, Bool.and_eq_false_iff,
    decide_eq_false_iff_not] at hc
  omega

/-- The digits of a character that may not stand as it is. -/
theorem fourDigits_spec :
    ∀ n < 128, (fourDigits n).length = 4 ∧ Text.numeralFrom? 16 0 (fourDigits n) = some n := by
  decide

/-- The digits of an escape are read one by one. -/
theorem readBasic_code (lines : Bool) {digits : List Char} {found n : Nat} (hdigits : digits ≠ [])
    (hn : Text.numeralFrom? 16 found digits = some n) (hvalid : n.isValidChar) :
    readBasic lines (.code digits.length found) (digits ++ rest) =
      consText (Char.ofNat n) (readBasic lines .plain rest) := by
  induction digits generalizing found with
  | nil => exact absurd rfl hdigits
  | cons c digits ih =>
    rw [Text.numeralFrom?] at hn
    cases hd : Text.digit? 16 c with
    | none => simp [hd] at hn
    | some d =>
      simp only [hd] at hn
      rw [List.cons_append, readBasic]
      simp only [Reading.at, hd]
      cases digits with
      | nil =>
        cases hn
        simp [charOfNumber?, hvalid]
      | cons c' digits =>
        have hlength : ¬ (c :: c' :: digits).length ≤ 1 := by simp
        rw [if_neg hlength]
        exact ih (by simp) hn

/-- A character is read back from the form in which it stands in a basic text. -/
theorem readBasic_writeChar (lines : Bool) (hquote : c ≠ '"') (hline : c ≠ '\n') :
    readBasic lines .plain (writeChar c ++ rest) =
      consText c (readBasic lines .plain rest) := by
  rw [writeChar.eq_def]
  split
  any_goals cases lines <;> rfl
  next hback htab hfeed hreturn hslash =>
    split_ifs with hc
    · rw [List.singleton_append, readBasic]
      simp only [Reading.at]
      rw [if_neg hquote, if_neg hslash, if_neg (fun h => hline h.1), if_neg (fun h => hreturn h.1),
        if_pos hc]
    · have hlt := toNat_lt_of_not_isPrintable (by simpa using hc)
      obtain ⟨hlength, hvalue⟩ := fourDigits_spec c.toNat hlt
      have hcode : readBasic lines _ (fourDigits c.toNat ++ rest) = _ :=
        readBasic_code lines (List.ne_nil_of_length_eq_add_one hlength) hvalue (.inl (by omega))
      rw [hlength, Char.ofNat_toNat] at hcode
      rw [← hcode]
      cases lines <;> rfl

/-- What a character is written as begins with a character that may stand in a text. -/
theorem writeChar_eq_cons (hquote : c ≠ '"') :
    ∃ d ds, writeChar c = d :: ds ∧ d ≠ '"' ∧ isPrintable d = true := by
  rw [writeChar.eq_def]
  split
  any_goals exact ⟨_, _, rfl, by decide, rfl⟩
  split_ifs with hc
  · exact ⟨c, [], rfl, hquote, hc⟩
  · exact ⟨_, _, rfl, by decide, rfl⟩

/-! ### Closing quotes -/

/-- The closing quotes are found behind the last quotes of a text. -/
theorem closing?_append (hrun : (written.takeWhile (· = q)).length ≤ 2)
    (hrest : rest.head? ≠ some q) :
    closing? q (written ++ [q, q, q] ++ rest) =
      if written.all (· = q) then some (written, rest) else none := by
  have hclosed : ([q, q, q] ++ rest).takeWhile (· = q) = [q, q, q] := by
    cases rest with
    | nil => simp
    | cons c rest =>
      have hc : c ≠ q := by simpa using hrest
      simp [hc]
  rw [closing?, List.append_assoc, List.takeWhile_append, hclosed]
  by_cases hall : written.all (· = q) = true
  · have htake : written.takeWhile (· = q) = written :=
      List.takeWhile_eq_self_iff.2 (List.all_eq_true.1 hall)
    have hwritten : List.replicate written.length q = written :=
      (List.eq_replicate_of_mem fun c hc => by simpa using List.all_eq_true.1 hall c hc).symm
    rw [htake] at hrun
    have hmin : min (written ++ [q, q, q]).length 5 = written.length + 3 := by simp; omega
    have hdrop : (written ++ ([q, q, q] ++ rest)).drop (written.length + 3) = rest := by
      rw [← List.drop_drop, List.drop_left]
      rfl
    simp only [htake, if_true, hmin, hall]
    rw [if_neg (by omega), Nat.add_sub_cancel, hwritten, hdrop]
  · have htake : (written.takeWhile (· = q)).length ≠ written.length := by
      intro hlength
      refine hall (List.all_eq_true.2 fun c hc => ?_)
      rw [← List.takeWhile_prefix (p := (· = q)) |>.eq_of_length hlength] at hc
      exact List.mem_takeWhile_imp (p := (· = q)) hc
    rw [if_neg htake, if_neg hall]
    exact if_pos (by omega)

/-! ### Basic texts -/

theorem writeBasic_quote {lines : Bool} {run : Nat} (h : ¬ (lines = true ∧ run < 2)) :
    writeBasic lines run ('"' :: cs) = '\\' :: '"' :: writeBasic lines 0 cs := by
  rw [writeBasic, if_pos rfl, if_neg h]

theorem writeBasic_quote_lines {run : Nat} (hrun : run < 2) :
    writeBasic true run ('"' :: cs) = '"' :: writeBasic true (run + 1) cs := by
  rw [writeBasic, if_pos rfl, if_pos ⟨rfl, hrun⟩]

theorem writeBasic_line (run : Nat) :
    writeBasic false run ('\n' :: cs) = '\\' :: 'n' :: writeBasic false 0 cs := rfl

theorem writeBasic_line_lines (run : Nat) :
    writeBasic true run ('\n' :: cs) = '\n' :: writeBasic true 0 cs := rfl

theorem writeBasic_char (lines : Bool) (run : Nat) (hquote : c ≠ '"') (hline : c ≠ '\n') :
    writeBasic lines run (c :: cs) = writeChar c ++ writeBasic lines 0 cs := by
  rw [writeBasic, if_neg hquote, if_neg hline]

/-- An escape for a single character is read back. -/
theorem readBasic_escape (lines : Bool) {e : Char} (h : unescape? c = some e) :
    readBasic lines .plain ('\\' :: c :: rest) = consText e (readBasic lines .plain rest) := by
  rw [unescape?.eq_def] at h
  split at h <;> cases h <;> cases lines <;> rfl

theorem readBasic_line :
    readBasic true .plain ('\n' :: rest) = consText '\n' (readBasic true .plain rest) := by
  simp [readBasic, Reading.at]

/-- A basic text on one line is read back. -/
theorem readBasic_writeBasic (cs rest : List Char) :
    readBasic false .plain (writeBasic false 0 cs ++ '"' :: rest) = some (cs, rest) := by
  induction cs with
  | nil => rfl
  | cons c cs ih =>
    by_cases hquote : c = '"'
    · rw [hquote, writeBasic_quote (by simp), List.cons_append, List.cons_append,
        readBasic_escape false rfl, ih, consText_some]
    · by_cases hline : c = '\n'
      · rw [hline, writeBasic_line, List.cons_append, List.cons_append, readBasic_escape false rfl,
          ih, consText_some]
      · rw [writeBasic_char false 0 hquote hline, List.append_assoc,
          readBasic_writeChar false hquote hline, ih, consText_some]

/-- In a text on several lines at most two quotes stand in a row as they are, and if nothing else is
written, then they are the text. -/
theorem quotes_writeBasic {run : Nat} (hrun : run ≤ 2) :
    ((writeBasic true run cs).takeWhile (· = '"')).length + run ≤ 2 ∧
      ((writeBasic true run cs).all (· = '"') = true → writeBasic true run cs = cs) := by
  induction cs generalizing run with
  | nil => simpa [writeBasic] using hrun
  | cons c cs ih =>
    by_cases hquote : c = '"'
    · subst hquote
      by_cases hmore : run < 2
      · obtain ⟨hlength, hall⟩ := ih (show run + 1 ≤ 2 by omega)
        rw [writeBasic_quote_lines hmore]
        refine ⟨?_, fun h => ?_⟩
        · simp only [List.takeWhile_cons, decide_true, if_true, List.length_cons]
          omega
        · rw [hall (by simpa using h)]
      · rw [writeBasic_quote (by simpa using hmore)]
        simpa using hrun
    · by_cases hline : c = '\n'
      · rw [hline, writeBasic_line_lines]
        simpa using hrun
      · obtain ⟨d, ds, hwrite, hd, -⟩ := writeChar_eq_cons hquote
        rw [writeBasic_char true run hquote hline, hwrite, List.cons_append]
        simpa [hd] using hrun

/-- A quote on several lines belongs to the text, unless nothing but quotes follows up to the
closing ones. -/
theorem readBasic_quote (hrun : (('"' :: written).takeWhile (· = '"')).length ≤ 2)
    (hrest : rest.head? ≠ some '"') :
    readBasic true .plain ('"' :: written ++ ['"', '"', '"'] ++ rest) =
      if written.all (· = '"') then some ('"' :: written, rest)
      else consText '"' (readBasic true .plain (written ++ ['"', '"', '"'] ++ rest)) := by
  have hclosing := closing?_append hrun hrest
  rw [List.cons_append, List.cons_append] at hclosing ⊢
  rw [readBasic]
  simp only [Reading.at, if_true, hclosing]
  split_ifs <;> simp_all

/-- A basic text on several lines is read back. -/
theorem readBasic_writeBasic_lines {run : Nat} (hrun : run ≤ 2) (hrest : rest.head? ≠ some '"') :
    readBasic true .plain (writeBasic true run cs ++ ['"', '"', '"'] ++ rest) =
      some (cs, rest) := by
  induction cs generalizing run with
  | nil =>
    have hclosing : closing? '"' ([] ++ ['"', '"', '"'] ++ rest) = _ :=
      closing?_append (by simp) hrest
    simp only [List.nil_append, List.cons_append, List.all_nil, if_true] at hclosing
    simp [writeBasic, readBasic, Reading.at, hclosing]
  | cons c cs ih =>
    by_cases hquote : c = '"'
    · subst hquote
      by_cases hmore : run < 2
      · obtain ⟨hlength, hall⟩ : _ ∧ ((writeBasic true run ('"' :: cs)).all (· = '"') = true → _) :=
          quotes_writeBasic hrun
        rw [writeBasic_quote_lines hmore] at hlength hall ⊢
        rw [readBasic_quote (by omega) hrest, ih (by omega), consText_some]
        split_ifs with h
        · rw [hall (by simpa using h)]
        · rfl
      · rw [writeBasic_quote (by simpa using hmore)]
        simp only [List.cons_append]
        rw [readBasic_escape true rfl, ih (Nat.zero_le _), consText_some]
    · by_cases hline : c = '\n'
      · rw [hline, writeBasic_line_lines, List.cons_append, List.cons_append, readBasic_line,
          ih (Nat.zero_le _), consText_some]
      · rw [writeBasic_char true run hquote hline, List.append_assoc, List.append_assoc,
          readBasic_writeChar true hquote hline, ← List.append_assoc, ih (Nat.zero_le _),
          consText_some]

/-! ### Literal texts -/

theorem readLiteral_char {lines : Bool} (hquote : c ≠ '\x27')
    (hc : isPrintable c = true ∨ c = '\n' ∧ lines = true) :
    readLiteral lines (c :: rest) = consText c (readLiteral lines rest) := by
  rw [readLiteral, if_neg hquote]
  rcases hc with hc | hline
  · split_ifs <;> rfl
  · rw [if_pos hline]

/-- A literal text on one line is read back. -/
theorem readLiteral_append (h : ∀ c ∈ cs, isPrintable c = true ∧ c ≠ '\x27') :
    readLiteral false (cs ++ '\x27' :: rest) = some (cs, rest) := by
  induction cs with
  | nil => rfl
  | cons c cs ih =>
    obtain ⟨⟨hc, hquote⟩, hcs⟩ := List.forall_mem_cons.1 h
    rw [List.cons_append, readLiteral_char hquote (.inl hc), ih hcs, consText_some]

/-- The longest run of quotes is at least as long as the one at the start. -/
theorem length_takeWhile_le_longestRun (q : Char) (run : Nat) (cs : List Char) :
    run + (cs.takeWhile (· = q)).length ≤ longestRun q run cs := by
  induction cs generalizing run with
  | nil => simp [longestRun]
  | cons c cs ih =>
    rw [longestRun]
    split_ifs with hc
    · have := ih (run + 1)
      simp only [hc, List.takeWhile_cons, decide_true, if_true, List.length_cons]
      omega
    · rw [List.takeWhile_cons_of_neg (by simpa using hc)]
      exact Nat.le_max_left _ _

/-- A quote on several lines belongs to the text, unless nothing but quotes follows up to the
closing ones. -/
theorem readLiteral_quote (hrun : (('\x27' :: written).takeWhile (· = '\x27')).length ≤ 2)
    (hrest : rest.head? ≠ some '\x27') :
    readLiteral true ('\x27' :: written ++ ['\x27', '\x27', '\x27'] ++ rest) =
      if written.all (· = '\x27') then some ('\x27' :: written, rest)
      else consText '\x27' (readLiteral true (written ++ ['\x27', '\x27', '\x27'] ++ rest)) := by
  have hclosing := closing?_append hrun hrest
  rw [List.cons_append, List.cons_append] at hclosing ⊢
  rw [readLiteral]
  simp only [if_true, hclosing]
  split_ifs <;> simp_all

/-- A literal text on several lines is read back. -/
theorem readLiteral_append_lines {run : Nat} (h : ∀ c ∈ cs, isPrintable c = true ∨ c = '\n')
    (hrun : longestRun '\x27' run cs ≤ 2) (hrest : rest.head? ≠ some '\x27') :
    readLiteral true (cs ++ ['\x27', '\x27', '\x27'] ++ rest) = some (cs, rest) := by
  induction cs generalizing run with
  | nil =>
    have hclosing : closing? '\x27' ([] ++ ['\x27', '\x27', '\x27'] ++ rest) = _ :=
      closing?_append (by simp) hrest
    simp only [List.nil_append, List.cons_append, List.all_nil, if_true] at hclosing
    simp [readLiteral, hclosing]
  | cons c cs ih =>
    obtain ⟨hc, hcs⟩ := List.forall_mem_cons.1 h
    have hlength := length_takeWhile_le_longestRun '\x27' run (c :: cs)
    rw [longestRun] at hrun
    split_ifs at hrun with hquote
    · subst hquote
      rw [longestRun, if_pos rfl] at hlength
      rw [readLiteral_quote (by omega) hrest, ih hcs hrun, consText_some]
      exact ite_self _
    · rw [List.cons_append, List.cons_append, readLiteral_char hquote (by simpa using hc),
        ih hcs (show longestRun '\x27' 0 cs ≤ 2 by omega), consText_some]

/-! ### Forms -/

/-- The form can hold the text: without escapes there must be nothing that needs one, and no more
quotes in a row than may stand there. -/
def Form.Holds : Form → List Char → Prop
  | basic, _ => True
  | literal, cs => ∀ c ∈ cs, isPrintable c = true ∧ c ≠ '\x27'
  | basicLines, _ => True
  | literalLines, cs =>
    (∀ c ∈ cs, isPrintable c = true ∨ c = '\n') ∧ longestRun '\x27' 0 cs ≤ 2

theorem not_mem_of_longestRun_eq_zero {run : Nat} (h : longestRun q run cs = 0) : q ∉ cs := by
  induction cs generalizing run with
  | nil => exact List.not_mem_nil
  | cons c cs ih =>
    rw [longestRun] at h
    split_ifs at h with hc
    · have := length_takeWhile_le_longestRun q (run + 1) cs
      omega
    · rw [List.mem_cons, not_or]
      exact ⟨fun hq => hc hq.symm, ih (show longestRun q 0 cs = 0 by omega)⟩

/-- The form that is chosen for a text can hold it. -/
theorem holds_choose (cs : List Char) : (Form.choose cs).Holds cs := by
  have hprintable (h : cs.any (fun c => !(isPrintable c || c = '\n')) = false) (c : Char)
      (hc : c ∈ cs) : isPrintable c = true ∨ c = '\n' := by
    simpa [-not_or, or_iff_not_imp_left] using List.any_eq_false.1 h c hc
  rw [Form.choose]
  split_ifs with hbasic hliteral hlines hliteralLines
  · trivial
  · simp only [Bool.and_eq_true, Bool.not_eq_true', decide_eq_true_eq] at hliteral
    obtain ⟨⟨hescaped, hnone⟩, hsingle⟩ := hliteral
    have hline : '\n' ∉ cs := by simpa using hnone
    refine fun c hc => ⟨(hprintable hescaped c hc).resolve_right ?_, ?_⟩
    · exact fun h => hline (h ▸ hc)
    · exact fun h => not_mem_of_longestRun_eq_zero hsingle (h ▸ hc)
  · trivial
  · simp only [Bool.and_eq_true, Bool.not_eq_true', decide_eq_true_eq] at hliteralLines
    exact ⟨hprintable hliteralLines.1, hliteralLines.2⟩
  · trivial
  · trivial

theorem dropLineEnd_eq (hline : cs.head? ≠ some '\n') (hreturn : cs.head? ≠ some '\r') :
    dropLineEnd cs = cs := by
  rw [dropLineEnd.eq_def]
  split <;> simp_all

/-- The line end that is written after the opening quotes does not belong to the text. -/
theorem dropLineEnd_openingLine (hline : '\n' ∉ cs → written.head? ≠ some '\n')
    (hreturn : '\n' ∉ cs → written.head? ≠ some '\r') :
    dropLineEnd (openingLine cs ++ written) = written := by
  rw [openingLine]
  split_ifs with h
  · rfl
  · have hcs : '\n' ∉ cs := by simpa using h
    exact dropLineEnd_eq (hline hcs) (hreturn hcs)

/-- Text that does not begin with three quotes is on one line. -/
theorem readText?_eq_readLine? (hdouble : ∀ more, cs ≠ '"' :: '"' :: '"' :: more)
    (hsingle : ∀ more, cs ≠ '\x27' :: '\x27' :: '\x27' :: more) :
    readText? cs = (readLine? cs).map fun (text, rest) => (String.ofList text, rest) := by
  rw [readText?]
  · exact hdouble
  · exact hsingle

/-- What a basic text begins with is no quote on one line, and no line end of its own. -/
theorem head?_writeBasic (lines : Bool) (cs : List Char) :
    (lines = false → (writeBasic lines 0 cs).head? ≠ some '"') ∧
      ('\n' ∉ cs → (writeBasic lines 0 cs).head? ≠ some '\n') ∧
      (writeBasic lines 0 cs).head? ≠ some '\r' := by
  cases cs with
  | nil => simp [writeBasic]
  | cons c cs =>
    by_cases hquote : c = '"'
    · subst hquote
      cases lines with
      | true => simp [writeBasic_quote_lines]
      | false => simp [writeBasic_quote]
    · by_cases hline : c = '\n'
      · subst hline
        cases lines with
        | true => simp [writeBasic_line_lines]
        | false => simp [writeBasic_line]
      · obtain ⟨d, ds, hwrite, hd, hprintable⟩ := writeChar_eq_cons hquote
        rw [writeBasic_char lines 0 hquote hline, hwrite, List.cons_append, List.head?_cons]
        refine ⟨fun _ => by simpa using hd, fun _ => ?_, ?_⟩ <;>
          (rintro ⟨⟩; cases hprintable)

/-- A text is read back from each form that can hold it. -/
theorem readText?_write (form : Form) (h : form.Holds cs) (hdouble : rest.head? ≠ some '"')
    (hsingle : rest.head? ≠ some '\x27') :
    readText? (form.write cs ++ rest) = some (String.ofList cs, rest) := by
  cases form with
  | basic =>
    have hwritten : Form.basic.write cs ++ rest =
        '"' :: (writeBasic false 0 cs ++ '"' :: rest) := by
      simp [Form.write]
    rw [hwritten, readText?_eq_readLine?, readLine?, readBasic_writeBasic, Option.map_some]
    · rintro more heq
      have hhead := (head?_writeBasic false cs).1 rfl
      cases hbasic : writeBasic false 0 cs <;> simp_all
    · simp
  | literal =>
    have hwritten : Form.literal.write cs ++ rest = '\x27' :: (cs ++ '\x27' :: rest) := by
      simp [Form.write]
    rw [hwritten, readText?_eq_readLine?, readLine?, readLiteral_append h, Option.map_some]
    · simp
    · rintro more heq
      cases cs with
      | nil => simp_all
      | cons c cs =>
        have hc := (List.forall_mem_cons.1 h).1.2
        simp_all
  | basicLines =>
    have hwritten : Form.basicLines.write cs ++ rest = '"' :: '"' :: '"' :: (openingLine cs ++
        (writeBasic true 0 cs ++ ['"', '"', '"'] ++ rest)) := by
      simp [Form.write]
    obtain ⟨-, hline, hreturn⟩ := head?_writeBasic true cs
    rw [hwritten, readText?, dropLineEnd_openingLine,
      readBasic_writeBasic_lines (Nat.zero_le _) hdouble, Option.map_some]
    · intro hcs
      rw [List.append_assoc]
      cases hwrite : writeBasic true 0 cs <;> simp_all
    · intro hcs
      rw [List.append_assoc]
      cases hwrite : writeBasic true 0 cs <;> simp_all
  | literalLines =>
    have hwritten : Form.literalLines.write cs ++ rest = '\x27' :: '\x27' :: '\x27' ::
        (openingLine cs ++ (cs ++ ['\x27', '\x27', '\x27'] ++ rest)) := by
      simp [Form.write]
    obtain ⟨hprintable, hrun⟩ := h
    rw [hwritten, readText?, dropLineEnd_openingLine,
      readLiteral_append_lines hprintable hrun hsingle, Option.map_some]
    · intro hcs
      cases cs with
      | nil => simp
      | cons c cs =>
        rintro ⟨⟩
        exact hcs List.mem_cons_self
    · intro hcs
      cases cs with
      | nil => simp
      | cons c cs =>
        rintro ⟨⟩
        rcases (List.forall_mem_cons.1 hprintable).1 with hc | hc <;> cases hc

/-- A text is read back from the form in which it is written. -/
theorem readText?_writeText (text : String) (hdouble : rest.head? ≠ some '"')
    (hsingle : rest.head? ≠ some '\x27') :
    readText? (writeText text ++ rest) = some (text, rest) := by
  have hread := readText?_write _ (holds_choose text.toList) hdouble hsingle
  rwa [String.ofList_toList] at hread

end RuledMarkup.Toml
