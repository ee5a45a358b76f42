import RuledMarkup.Proofs.Inline.Matches

/-!
# Prose as inline markup

Words and styled text in turns, in which no style stands inside itself, are written with marks
around what is styled.  The marks of a style do not occur in what stands between them: where they
are double, their signs never stand side by side there, and the asterisks in text in italics come in
pairs.

## Main definitions

* `Word`, `Prose` : words, and what is written of them.
* `Node.written`, `Forest.written` : trees and forests as inline markup.
* `Inline.Enclosable` : what can be told from the marks of a style around it.

## Main results

* `Prose.toList_written_forest` : the characters of prose that is written as inline markup.
* `Prose.apart` : the signs of a style stand apart inside of it.
* `Prose.enclosable` : prose inside of a style can be told from its marks.
-/

namespace RuledMarkup

variable {R T : Type}

/-! ### Prose -/

/-- The character that the mark of a style consists of. -/
def TextStyle.sign : TextStyle → Char
  | bold | italic => '*'
  | underline => '_'
  | strikethrough => '~'

/-- The mark of a style: a single asterisk for italics, and two signs for the other styles. -/
def TextStyle.mark : TextStyle → String
  | bold => "**"
  | italic => "*"
  | underline => "__"
  | strikethrough => "~~"

/-- The characters of the mark of a style. -/
def TextStyle.signs : TextStyle → List Char
  | italic => ['*']
  | s => [s.sign, s.sign]

theorem TextStyle.toList_mark (s : TextStyle) : s.mark.toList = s.signs := by
  cases s <;> rfl

/-- A word of letters. -/
structure Word where
  text : String
  ne_empty : text ≠ ""
  isAlpha : ∀ c ∈ text.toList, c.isAlpha = true

/-- A word, or words and styled prose in turns with spaces between them, inside of some styles none
of which is asked for again. -/
inductive Prose : List TextStyle → Type
  | word {outer : List TextStyle} (w : Word) : Prose outer
  | styled {outer : List TextStyle} (w : Word) (s : TextStyle) (fresh : s ∉ outer)
    (inner : Prose (s :: outer)) (rest : Prose outer) : Prose outer

/-- The forest of prose, with something before its first word.  Spaces belong to the words beside
them. -/
def Prose.forest [HasTextStyles T] {outer : List TextStyle} : Prose outer → String → List (Node R T)
  | word w, lead => [.text (lead ++ w.text)]
  | styled w s _ inner rest, lead =>
    .text (lead ++ w.text ++ " ") ::
      .style [HasTextStyles.textStyle s] (inner.forest "") :: rest.forest " "

mutual

/-- A tree as inline markup: texts as they are, and the marks of its styles around what is below a
node with styles. -/
def Node.written (mark : T → String) : Node R T → String
  | .mk (.style styles) children =>
    let marks := String.join (styles.map mark)
    marks ++ Forest.written mark children ++ marks
  | .mk kind children => kind.content?.getD "" ++ Forest.written mark children

/-- A forest as inline markup. -/
def Forest.written (mark : T → String) : List (Node R T) → String
  | [] => ""
  | node :: forest => node.written mark ++ Forest.written mark forest

end

/-- The characters of prose as inline markup. -/
def Prose.chars {outer : List TextStyle} : Prose outer → List Char
  | word w => w.text.toList
  | styled w s _ inner rest =>
    w.text.toList ++ [' '] ++ (s.signs ++ inner.chars ++ s.signs) ++ ([' '] ++ rest.chars)

@[simp] theorem Node.written_text (mark : T → String) (content : String) :
    (text content : Node R T).written mark = content := by
  simp [text, leaf, written, Kind.content?, Forest.written]

@[simp] theorem Node.written_style (mark : T → String) (t : T) (children : List (Node R T)) :
    (style [t] children).written mark = mark t ++ Forest.written mark children ++ mark t := by
  simp [style, written]

theorem Prose.toList_written_forest [HasTextStyles T] {mark : T → String}
    (hmark : ∀ s, mark (HasTextStyles.textStyle s) = s.mark) {outer : List TextStyle}
    (p : Prose outer) (lead : String) :
    (Forest.written mark (p.forest lead : List (Node R T))).toList = lead.toList ++ p.chars := by
  induction p generalizing lead with
  | word w => simp [forest, chars, Forest.written]
  | styled w s fresh inner rest ihinner ihrest =>
    simp [forest, chars, Forest.written, hmark, TextStyle.toList_mark, ihinner, ihrest]

/-! ### Letters -/

namespace Text

theorem toNat_of_isAlpha {c : Char} (hc : c.isAlpha = true) :
    65 ≤ c.toNat ∧ c.toNat ≤ 90 ∨ 97 ≤ c.toNat ∧ c.toNat ≤ 122 := by
  delta Char.isAlpha Char.isUpper Char.isLower at hc
  simp only [Bool.or_eq_true, Bool.and_eq_true, decide_eq_true_eq, ge_iff_le,
    UInt32.le_iff_toNat_le] at hc
  exact hc

theorem isSpace_of_isAlpha {c : Char} (hc : c.isAlpha = true) : isSpace c = false := by
  have := toNat_of_isAlpha hc
  simp [isSpace]
  omega

theorem ne_of_isAlpha {c d : Char} (hc : c.isAlpha = true) (hd : d.isAlpha = false) : c ≠ d := by
  rintro rfl
  simp [hc] at hd

end Text

open Text (isSpace_of_isAlpha ne_of_isAlpha)

namespace Inline

theorem mem_ordinary_of_isAlpha {c : Char} (hc : c.isAlpha = true) : ordinary.mem c = true := by
  delta Char.isAlpha Char.isUpper Char.isLower at hc
  simp only [Bool.or_eq_true, Bool.and_eq_true, decide_eq_true_eq] at hc
  simp only [ordinary, CharSet.mem, Bool.or_eq_true, Bool.and_eq_true, decide_eq_true_eq]
  rcases hc with hc | hc
  · exact .inl (.inl (.inl (.inr hc)))
  · exact .inl (.inl (.inr hc))

namespace Rounds

theorem letter {c : Char} (hc : c.isAlpha = true) : Rounds [c] :=
  single (isSpace_of_isAlpha hc) (ne_of_isAlpha hc rfl)

theorem space_letter {c : Char} (hc : c.isAlpha = true) : Rounds [' ', c] :=
  space_single (isSpace_of_isAlpha hc) (ne_of_isAlpha hc rfl)

theorem letters {a : List Char} (ha : ∀ c ∈ a, c.isAlpha = true) : Rounds a := by
  induction a with
  | nil => exact nil
  | cons c a ih =>
    obtain ⟨hc, ha⟩ := List.forall_mem_cons.1 ha
    exact (letter hc).append (ih ha)

/-- The marks of other styles are read in text in italics. -/
theorem signs {s : TextStyle} (hs : s ≠ .italic) : Rounds s.signs := by
  have hsign {c : Char} (h : Text.isSpace c = false ∧ c ≠ '*') : Rounds [c, c] :=
    (single h.1 h.2).append (single h.1 h.2)
  cases s with
  | bold => exact stars
  | italic => exact absurd rfl hs
  | underline | strikethrough => exact hsign (by decide)

/-- The marks of other styles are read in text in italics after a space. -/
theorem space_signs {s : TextStyle} (hs : s ≠ .italic) : Rounds (' ' :: s.signs) := by
  have hsign {c : Char} (h : Text.isSpace c = false ∧ c ≠ '*') : Rounds [' ', c, c] :=
    (space_single h.1 h.2).append (single h.1 h.2)
  cases s with
  | bold => exact space_stars
  | italic => exact absurd rfl hs
  | underline | strikethrough => exact hsign (by decide)

end Rounds

/-- The signs of a style whose marks are double stand apart in the marks of other styles. -/
theorem apart_signs {s t : TextStyle} (h : t ≠ s) (hs : s ≠ .italic) : Apart s.sign t.signs := by
  by_cases ht : t = .italic
  · subst ht
    exact List.isChain_singleton _
  · refine .of_not_mem ?_
    cases s <;> cases t <;> first | contradiction | decide

/-- What can be told from the marks of a style around it. -/
structure Enclosable (s : TextStyle) (inner : List Char) : Prop where
  ne_nil : inner ≠ []
  isAlpha_head : ∀ c ∈ inner.head?, c.isAlpha = true
  isAlpha_last : ∀ c ∈ inner.getLast?, c.isAlpha = true
  slanted : s = .italic → ∀ pre post, slantedBody.Reads pre inner post []
  apart : s ≠ .italic → Apart s.sign inner

theorem Enclosable.sign_not_mem_getLast? {s : TextStyle} {inner : List Char}
    (h : Enclosable s inner) : s.sign ∉ inner.getLast? := by
  intro hmem
  have hletter := h.isAlpha_last _ hmem
  cases s <;> exact absurd hletter (by decide)

end Inline

/-! ### The characters of prose -/

namespace Word

/-- A word begins with a letter, and letters follow. -/
theorem exists_cons (w : Word) : ∃ c tail, w.text.toList = c :: tail ∧ c.isAlpha = true ∧
    ∀ d ∈ tail, d.isAlpha = true := by
  have hne : w.text.toList ≠ [] := fun h => w.ne_empty (String.toList_eq_nil_iff.1 h)
  obtain ⟨c, tail, htext⟩ := List.exists_cons_of_ne_nil hne
  exact ⟨c, tail, htext, List.forall_mem_cons.1 (htext ▸ w.isAlpha)⟩

end Word

namespace Prose

open Inline (Rounds Apart)

variable {outer : List TextStyle} {s : TextStyle}

/-- Prose begins with a letter.  Inside text in italics, what follows it is read in rounds. -/
theorem exists_cons (p : Prose outer) : ∃ c tail, p.chars = c :: tail ∧ c.isAlpha = true ∧
    (.italic ∈ outer → Rounds tail) := by
  induction p with
  | word w =>
    obtain ⟨c, tail, htext, hc, htail⟩ := w.exists_cons
    exact ⟨c, tail, htext, hc, fun _ => .letters htail⟩
  | styled w s fresh inner rest ihinner ihrest =>
    obtain ⟨c, tail, htext, hc, htail⟩ := w.exists_cons
    obtain ⟨d, within, hinner, hd, hwithin⟩ := ihinner
    obtain ⟨e, later, hrest, he, hlater⟩ := ihrest
    refine ⟨c, tail ++ (' ' :: s.signs) ++ (d :: within) ++ s.signs ++ ' ' :: e :: later,
      by simp [chars, htext, hinner, hrest], hc, fun hmem => ?_⟩
    have hs : s ≠ .italic := fun h => fresh (h ▸ hmem)
    have hinner := (Rounds.letter hd).append (hwithin (List.mem_cons_of_mem s hmem))
    have hrest := (Rounds.space_letter he).append (hlater hmem)
    have hword := (Rounds.letters htail).append (.space_signs hs)
    exact ((hword.append hinner).append (.signs hs)).append hrest

theorem chars_ne_nil (p : Prose outer) : p.chars ≠ [] := by
  obtain ⟨c, tail, hchars, -⟩ := p.exists_cons
  simp [hchars]

theorem isAlpha_of_mem_head? (p : Prose outer) : ∀ c ∈ p.chars.head?, c.isAlpha = true := by
  obtain ⟨c, tail, hchars, hc, -⟩ := p.exists_cons
  simpa [hchars] using hc

/-- Prose ends with a letter. -/
theorem isAlpha_of_mem_getLast? (p : Prose outer) : ∀ c ∈ p.chars.getLast?, c.isAlpha = true := by
  induction p with
  | word w => exact fun c hc => w.isAlpha c (List.mem_of_mem_getLast? hc)
  | styled w s fresh inner rest _ ihrest =>
    rwa [chars, List.getLast?_append_of_ne_nil _ (by simp),
      List.getLast?_append_of_ne_nil _ rest.chars_ne_nil]

/-- Prose consists of letters, spaces and signs. -/
theorem mem_chars (p : Prose outer) :
    ∀ c ∈ p.chars, c.isAlpha = true ∨ c ∈ [' ', '*', '_', '~'] := by
  induction p with
  | word w => exact fun c hc => .inl (w.isAlpha c hc)
  | styled w s fresh inner rest ihinner ihrest =>
    have hmark : ∀ c ∈ s.signs, c ∈ [' ', '*', '_', '~'] := by
      cases s <;> simp [TextStyle.signs, TextStyle.sign]
    intro c hc
    simp only [chars, List.mem_append, List.mem_cons, List.not_mem_nil, or_false] at hc
    rcases hc with ((hc | rfl) | (hc | hc) | hc) | rfl | hc
    · exact .inl (w.isAlpha c hc)
    · exact .inr (by decide)
    · exact .inr (hmark c hc)
    · exact ihinner c hc
    · exact .inr (hmark c hc)
    · exact .inr (by decide)
    · exact ihrest c hc

/-- Inside of a style whose marks are double, its signs stand apart. -/
theorem apart (p : Prose outer) (hs : s ∈ outer) (hne : s ≠ .italic) : Apart s.sign p.chars := by
  have hsign : s.sign.isAlpha = false := by cases s <;> rfl
  have hspace : s.sign ≠ ' ' := by cases s <;> decide
  have hletter {c : Char} (hc : c.isAlpha = true) : s.sign ≠ c := (ne_of_isAlpha hc hsign).symm
  induction p with
  | word w => exact .of_not_mem fun hmem => hletter (w.isAlpha _ hmem) rfl
  | styled w t fresh inner rest ihinner ihrest =>
    have hmark : Apart s.sign t.signs := Inline.apart_signs (fun h => fresh (h ▸ hs)) hne
    have hword : Apart s.sign (w.text.toList ++ [' ']) := .of_not_mem fun hmem => by
      rcases List.mem_append.1 hmem with hmem | hmem
      · exact hletter (w.isAlpha _ hmem) rfl
      · exact hspace (List.mem_singleton.1 hmem)
    have hhead : s.sign ∉ inner.chars.head? := fun hmem =>
      hletter (inner.isAlpha_of_mem_head? _ hmem) rfl
    have hlast : s.sign ∉ inner.chars.getLast? := fun hmem =>
      hletter (inner.isAlpha_of_mem_getLast? _ hmem) rfl
    have hrest : Apart s.sign ([' '] ++ rest.chars) :=
      .append (.of_not_mem (by simpa using hspace)) (ihrest hs) (.inl (by simpa using hspace.symm))
    have hinner := ihinner (List.mem_cons_of_mem t hs)
    -- At every joint there is a letter or a space on one side.
    have hstyled : Apart s.sign (t.signs ++ inner.chars ++ t.signs) :=
      (hmark.append hinner (.inr hhead)).append hmark
        (.inl (by rwa [List.getLast?_append_of_ne_nil _ inner.chars_ne_nil]))
    exact (hword.append hstyled (.inl (by simpa using hspace.symm))).append hrest
      (.inr (by simpa using hspace.symm))

/-- Prose inside of a style can be told from its marks. -/
theorem enclosable {s : TextStyle} (p : Prose (s :: outer)) : Inline.Enclosable s p.chars where
  ne_nil := p.chars_ne_nil
  isAlpha_head := p.isAlpha_of_mem_head?
  isAlpha_last := p.isAlpha_of_mem_getLast?
  slanted := by
    rintro rfl pre post
    obtain ⟨c, tail, hchars, hc, htail⟩ := p.exists_cons
    rw [hchars]
    exact Inline.Rounds.reads_slantedBody (isSpace_of_isAlpha hc) (ne_of_isAlpha hc rfl)
      (htail List.mem_cons_self)
  apart := p.apart List.mem_cons_self

end Prose

end RuledMarkup
