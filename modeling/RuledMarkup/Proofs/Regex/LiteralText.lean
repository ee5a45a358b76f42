import Mathlib.Tactic.FinCases
import RuledMarkup.Code.Lexicon
import RuledMarkup.Proofs.Regex.Enclosed
import RuledMarkup.Proofs.Regex.Sequences
import RuledMarkup.Regex.Footprint

/-!
# Literal text in expressions

A text may stand in an expression as it is if a backslash is put before each character that would
mean something there.  It is read as its characters, one after the other, if no sign of a repetition
comes after it.

## Main definitions

* `Regex.special`, `Regex.literalChars` : the characters with a meaning, and the written form of a
  text that is meant literally.
* `Regex.literal` : the characters of a text, one after the other, before an expression.

## Main results

* `Code.toList_literalSource` : the written form, character by character.
* `Reader.readItems_literal` : what has been written is read as the characters of the text.
* `Regex.readsEach_literal` : the characters of a text read that text and nothing else.
-/

namespace RuledMarkup

namespace Regex

/-- The characters that get a backslash. -/
def special : List Char :=
  ['\\', '.', '+', '*', '?', '(', ')', '|', '[', ']', '\x7b', '\x7d', '^', '$', '#', '&', '-', '~']

/-- The written form of a character that stands for itself. -/
def literalChar (c : Char) : List Char := if c ∈ special then ['\\', c] else [c]

/-- The written form of a text that stands for itself. -/
def literalChars (text : List Char) : List Char := text.flatMap literalChar

/-- The characters of a text, one after the other, before an expression. -/
def literal (text : List Char) (r : Regex) : Regex :=
  text.foldr (fun c r => .cat (.set (.one c)) r) r

end Regex

theorem Regex.length_le_literalChars (text : List Char) :
    text.length ≤ (Regex.literalChars text).length := by
  induction text with
  | nil => exact Nat.zero_le _
  | cons c text ih =>
    have hpos : 0 < (Regex.literalChar c).length := by
      rw [Regex.literalChar]
      split_ifs <;> simp
    rw [Regex.literalChars, List.flatMap_cons, List.length_append, ← Regex.literalChars,
      List.length_cons]
    omega

theorem Code.toList_literalSource (text : String) :
    (Code.literalSource text).toList = Regex.literalChars text.toList := by
  have hspecial : "\\.+*?()|[]\x7b\x7d^$#&-~".toList = Regex.special := spelled rfl
  rw [literalSource, hspecial, String.toList_ofList]
  rfl

namespace Regex

namespace Reader

variable {rest : List Char}

/-- No sign of a repetition comes next. -/
def EndsItem (rest : List Char) : Prop := ∀ c ∈ rest.head?, c ∉ ['*', '+', '?', '\x7b']

theorem readEscape_special {c : Char} (hc : c ∈ special) (rest : List Char) :
    readEscape (c :: rest) = .ok (.literal c, rest) := by
  rw [special] at hc
  fin_cases hc <;> rfl

theorem readRepetitions_of_endsItem (h : EndsItem rest) (swap : Bool) (bound : Nat)
    (piece : Piece) : readRepetitions swap (bound + 1) piece rest = .ok (piece, rest) := by
  rw [readRepetitions]
  all_goals
    rintro rest rfl
    exact absurd (h _ rfl) (by decide)

/-- The beginning of a literal text ends the item before it. -/
theorem endsItem_literalChars (h : EndsItem rest) (text : List Char) :
    EndsItem (literalChars text ++ rest) := by
  cases text with
  | nil => exact h
  | cons c text =>
    intro d hd
    have hsigns : ['*', '+', '?', '\x7b'] ⊆ special := by decide
    rw [literalChars, List.flatMap_cons, literalChar] at hd
    split_ifs at hd with hc
    · obtain rfl : '\\' = d := by simpa using hd
      decide
    · obtain rfl : c = d := by simpa using hd
      exact fun hmem => hc (hsigns hmem)

theorem readItem_escaped {c : Char} {cs : List Char} (h : readEscape cs = .ok (.literal c, rest))
    (bound : Nat) (reader : Reader) : readItem (bound + 1) { reader with rest := '\\' :: cs } =
      repetitions (bound + 1) ⟨.set (.one c), 0⟩ { reader with rest } := by
  rw [readItem]
  simp only [h, ok_bind]

theorem readItem_unescaped {c : Char} (hc : c ∉ special) (bound : Nat) (reader : Reader)
    (rest : List Char) : readItem (bound + 1) { reader with rest := c :: rest } =
      repetitions (bound + 1) ⟨.set (.one c), 0⟩ { reader with rest } := by
  rw [readItem]
  dsimp only
  split
  · next heq => cases heq
  all_goals
    next heq =>
      obtain ⟨rfl, rfl⟩ := List.cons_eq_cons.1 heq
      first
      | exact absurd (by decide) hc
      | rfl

/-- A character that stands for itself is an item. -/
theorem readItem_literal (bound : Nat) (reader : Reader) (c : Char) (h : EndsItem rest) :
    readItem (bound + 1) { reader with rest := literalChar c ++ rest } =
      .ok (⟨.set (.one c), 0⟩, { reader with rest }) := by
  have hfinish : repetitions (bound + 1) ⟨.set (.one c), 0⟩ { reader with rest } =
      .ok (⟨.set (.one c), 0⟩, { reader with rest }) := by
    rw [repetitions, readRepetitions_of_endsItem h]
    rfl
  rw [literalChar]
  split_ifs with hc
  · rw [← hfinish]
    exact readItem_escaped (readEscape_special hc rest) bound reader
  · rw [← hfinish]
    exact readItem_unescaped hc bound reader rest

/-- The written form of a character begins with a character that ends no sequence. -/
theorem exists_literalChar_eq_cons (c : Char) :
    ∃ d cs, literalChar c = d :: cs ∧ d ≠ '|' ∧ d ≠ ')' := by
  rw [literalChar]
  split_ifs with hc
  · exact ⟨'\\', [c], rfl, by decide, by decide⟩
  · have hsigns : ['|', ')'] ⊆ special := by decide
    refine ⟨c, [], rfl, ?_, ?_⟩
    · rintro rfl
      exact hc (hsigns (by simp))
    · rintro rfl
      exact hc (hsigns (by simp))

/-- A text that stands for itself is read as its characters, one after the other. -/
theorem readItems_literal (bound : Nat) (reader : Reader) (text : List Char) (h : EndsItem rest)
    {items : List Piece} {after : Reader}
    (hitems : readItems (bound + 1) { reader with rest } = .ok (items, after)) :
    readItems (text.length + bound + 1) { reader with rest := literalChars text ++ rest } =
      .ok (text.map (fun c => ⟨.set (.one c), 0⟩) ++ items, after) := by
  induction text with
  | nil => simpa [literalChars] using hitems
  | cons c text ih =>
    obtain ⟨d, cs, hc, hbar, hparen⟩ := exists_literalChar_eq_cons c
    have hsplit : literalChars (c :: text) ++ rest =
        literalChar c ++ (literalChars text ++ rest) := by
      rw [literalChars, List.flatMap_cons, List.append_assoc, literalChars]
    have hlength : (c :: text).length + bound + 1 = text.length + bound + 1 + 1 := by
      rw [List.length_cons]
      omega
    rw [hsplit, hlength, readItems_cons _ _ (by rw [hc]; rfl) hbar hparen,
      readItem_literal _ _ _ (endsItem_literalChars h text), ok_bind]
    dsimp only
    rw [ih]
    rfl

end Reader

/-! ### A text before an expression -/

variable {text : List Char} {r : Regex}

theorem literal_ne_empty (hr : r ≠ empty) (text : List Char) : literal text r ≠ empty := by
  cases text with
  | nil => exact hr
  | cons c text => exact nofun

theorem seq_set {s : CharSet} (hr : r ≠ empty) : seq (set s) r = .cat (set s) r := by
  cases r with
  | empty => exact absurd rfl hr
  | _ => rfl

theorem sequence_literal {rs : List Regex} (hrs : sequence rs ≠ empty) (text : List Char) :
    sequence (text.map (fun c => set (.one c)) ++ rs) = literal text (sequence rs) := by
  induction text with
  | nil => rfl
  | cons c text ih =>
    rw [sequence, List.map_cons, List.cons_append, List.foldr_cons, ← sequence, ih,
      seq_set (literal_ne_empty hrs text)]
    rfl

theorem items_literal (text : List Char) (r : Regex) :
    (literal text r).items = text.map (fun c => set (.one c)) ++ r.items := by
  induction text with
  | nil => rfl
  | cons c text ih => rw [literal, List.foldr_cons, items, ← literal, ih]; rfl

theorem isPlain_literal (text : List Char) (r : Regex) : (literal text r).isPlain = r.isPlain := by
  induction text with
  | nil => rfl
  | cons c text ih => rw [literal, List.foldr_cons, isPlain, ← literal, ih]; rfl

theorem groups_literal (text : List Char) (r : Regex) : (literal text r).groups = r.groups := by
  induction text with
  | nil => rfl
  | cons c text ih => rw [literal, List.foldr_cons, groups, ← literal, ih]; rfl

/-- The characters of a text read that text and nothing else. -/
theorem readsEach_literal {parts : List Regex} {pre word post : List Char} {bindings : Bindings} :
    ReadsEach (text.map (fun c => set (.one c)) ++ parts) pre word post bindings ↔
      ∃ v, word = text ++ v ∧ ReadsEach parts (pre ++ text) v post bindings := by
  induction text generalizing pre word with
  | nil => simp
  | cons c text ih =>
    simp only [List.map_cons, List.cons_append, readsEach_one_cons, ih, List.append_assoc,
      List.nil_append]
    constructor
    · rintro ⟨_, rfl, v, rfl, hv⟩
      exact ⟨v, rfl, hv⟩
    · rintro ⟨v, rfl, hv⟩
      exact ⟨_, rfl, v, rfl, hv⟩

theorem readsEach_text (text pre post : List Char) :
    ReadsEach (text.map fun c => set (.one c)) pre text post [] := by
  have h : ReadsEach (text.map (fun c => set (.one c)) ++ []) pre text post [] :=
    readsEach_literal.2 ⟨[], (List.append_nil text).symm, rfl, rfl⟩
  rwa [List.append_nil] at h

end Regex

end RuledMarkup
