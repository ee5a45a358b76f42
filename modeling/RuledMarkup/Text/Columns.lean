import RuledMarkup.Text.Emoji

/-!
# Columns of a text

On a terminal a letter takes one column, a character of the scripts of East Asia two, and a mark on
another character none.  What some characters take hangs on what follows them.

## Main definitions

* `charColumns` : the columns of a character by itself.
* `columns` : the columns of a text.
-/

namespace RuledMarkup.Text

/-- The characters of two columns. -/
def wideTable : Array (Nat × Nat) := #[
    (0x1100, 0x115e), (0x231a, 0x231b), (0x2329, 0x232a), (0x23e9, 0x23ec), (0x23f0, 0x23f0),
    (0x23f3, 0x23f3), (0x25fd, 0x25fe), (0x2614, 0x2615), (0x2630, 0x2637), (0x2648, 0x2653),
    (0x267f, 0x267f), (0x268a, 0x268f), (0x2693, 0x2693), (0x26a1, 0x26a1), (0x26aa, 0x26ab),
    (0x26bd, 0x26be), (0x26c4, 0x26c5), (0x26ce, 0x26ce), (0x26d4, 0x26d4), (0x26ea, 0x26ea),
    (0x26f2, 0x26f3), (0x26f5, 0x26f5), (0x26fa, 0x26fa), (0x26fd, 0x26fd), (0x2705, 0x2705),
    (0x270a, 0x270b), (0x2728, 0x2728), (0x274c, 0x274c), (0x274e, 0x274e), (0x2753, 0x2755),
    (0x2757, 0x2757), (0x2795, 0x2797), (0x27b0, 0x27b0), (0x27bf, 0x27bf), (0x2b1b, 0x2b1c),
    (0x2b50, 0x2b50), (0x2b55, 0x2b55), (0x2e80, 0x2e99), (0x2e9b, 0x2ef3), (0x2f00, 0x2fd5),
    (0x2ff0, 0x3029), (0x3030, 0x303e), (0x3041, 0x3096), (0x309b, 0x30ff), (0x3105, 0x312f),
    (0x3131, 0x3163), (0x3165, 0x318e), (0x3190, 0x31e5), (0x31ef, 0x321e), (0x3220, 0x3247),
    (0x3250, 0xa48c), (0xa490, 0xa4c6), (0xa960, 0xa97c), (0xac00, 0xd7a3), (0xf900, 0xfaff),
    (0xfe10, 0xfe19), (0xfe30, 0xfe52), (0xfe54, 0xfe66), (0xfe68, 0xfe6b), (0xff01, 0xff60),
    (0xffe0, 0xffe6), (0x16fe0, 0x16fe3), (0x17000, 0x187f7), (0x18800, 0x18cd5),
    (0x18cff, 0x18d08), (0x1aff0, 0x1aff3), (0x1aff5, 0x1affb), (0x1affd, 0x1affe),
    (0x1b000, 0x1b122), (0x1b132, 0x1b132), (0x1b150, 0x1b152), (0x1b155, 0x1b155),
    (0x1b164, 0x1b167), (0x1b170, 0x1b2fb), (0x1d300, 0x1d356), (0x1d360, 0x1d376),
    (0x1f004, 0x1f004), (0x1f0cf, 0x1f0cf), (0x1f18e, 0x1f18e), (0x1f191, 0x1f19a),
    (0x1f200, 0x1f202), (0x1f210, 0x1f23b), (0x1f240, 0x1f248), (0x1f250, 0x1f251),
    (0x1f260, 0x1f265), (0x1f300, 0x1f320), (0x1f32d, 0x1f335), (0x1f337, 0x1f37c),
    (0x1f37e, 0x1f393), (0x1f3a0, 0x1f3ca), (0x1f3cf, 0x1f3d3), (0x1f3e0, 0x1f3f0),
    (0x1f3f4, 0x1f3f4), (0x1f3f8, 0x1f43e), (0x1f440, 0x1f440), (0x1f442, 0x1f4fc),
    (0x1f4ff, 0x1f53d), (0x1f54b, 0x1f54e), (0x1f550, 0x1f567), (0x1f57a, 0x1f57a),
    (0x1f595, 0x1f596), (0x1f5a4, 0x1f5a4), (0x1f5fb, 0x1f64f), (0x1f680, 0x1f6c5),
    (0x1f6cc, 0x1f6cc), (0x1f6d0, 0x1f6d2), (0x1f6d5, 0x1f6d7), (0x1f6dc, 0x1f6df),
    (0x1f6eb, 0x1f6ec), (0x1f6f4, 0x1f6fc), (0x1f7e0, 0x1f7eb), (0x1f7f0, 0x1f7f0),
    (0x1f90c, 0x1f93a), (0x1f93c, 0x1f945), (0x1f947, 0x1f9ff), (0x1fa70, 0x1fa7c),
    (0x1fa80, 0x1fa89), (0x1fa8f, 0x1fac6), (0x1face, 0x1fadc), (0x1fadf, 0x1fae9),
    (0x1faf0, 0x1faf8), (0x20000, 0x2fffd), (0x30000, 0x3fffd)]

/-- The characters without a column that are not written onto others: those that nothing is shown
for, Korean letters inside a syllable, and signs around what follows them. -/
def hiddenTable : Array (Nat × Nat) := #[
    (0xad, 0xad), (0x605, 0x605), (0x61c, 0x61c), (0x70f, 0x70f), (0x890, 0x891),
    (0x8e2, 0x8e2), (0x1160, 0x11ff), (0x180e, 0x180e), (0x200b, 0x200b), (0x200d, 0x200f),
    (0x202a, 0x202e), (0x2060, 0x206f), (0x3164, 0x3164), (0xa8fa, 0xa8fa), (0xd7b0, 0xd7c6),
    (0xd7cb, 0xd7fb), (0xfeff, 0xfeff), (0xffa0, 0xffa0), (0xfff0, 0xfff8), (0x1bca0, 0x1bca3),
    (0x1d173, 0x1d17a), (0xe0000, 0xe001f), (0xe0080, 0xe00ff), (0xe01f0, 0xe0fff)]

/-- Does a character take no column?  The joiner between two consonants is shown if there is no
consonant. -/
def isColumnless (c : Char) : Bool :=
  c ≠ '\u2d7f' && (isExtending c || CodePoints.covers hiddenTable c.toNat)

/-- The columns of a character by itself.  A control character counts as one. -/
def charColumns (c : Char) : Nat :=
  if c.toNat < 0xa1 then 1
  else if isColumnless c then 0
  else if c = '\u17d8' then 3
  else if c = '\u17a4' || CodePoints.covers wideTable c.toNat then 2
  else 1

/-! ### Arabic and Khmer -/

/-- The forms of the Arabic letter lam. -/
def isLam (c : Char) : Bool :=
  let n := c.toNat
  n = 0x644 || 0x6b5 ≤ n && n ≤ 0x6b8 || n = 0x76a || n = 0x8a6 || n = 0x8c7

/-- The forms of the Arabic letter alef. -/
def isAlef (c : Char) : Bool :=
  let n := c.toNat
  n ∈ [0x622, 0x623, 0x625, 0x627, 0x675, 0x773, 0x774] || 0x671 ≤ n && n ≤ 0x673
    || 0x870 ≤ n && n ≤ 0x882

/-- Is the next letter, after its marks, an alef? -/
def beginsWithAlef (rest : List Char) : Bool :=
  (rest.dropWhile isExtending).head?.any isAlef

/-- The Khmer letters that can be written below another. -/
def isSubjoined (c : Char) : Bool :=
  let n := c.toNat
  0x1780 ≤ n && n ≤ 0x17a2
      && !(n ∈ [0x1783, 0x1788, 0x178d, 0x1794, 0x1799, 0x179a, 0x179e, 0x179f, 0x17a1])
    || n ∈ [0x17a7, 0x17ab, 0x17ac, 0x17af]

/-! ### Texts -/

/-- The columns of `c` if `rest` follows.  A lam is written into an alef after it, and of joined
pictures only the last one counts. -/
def columnsBefore (c : Char) (rest : List Char) : Nat :=
  if c.toNat < 0xa1 && rest.head? ≠ some pictureSelector then 1
  else if isLam c && beginsWithAlef rest then 0
  else if rest.head?.any isSkinTone && isPerson c then 0
  else if rest.head? = some pictureSelector && isEmoji c then
    if joinsPicture (rest.drop 1) then 0 else 2
  else if rest.head? = some signSelector && hasSignForm c then 1
  else if joinsPicture rest && isPictured c then 0
  else charColumns c

/-- The columns of a text.  A Khmer letter that is written below another takes none. -/
def columns : List Char → Nat
  | [] => 0
  | [c] => columnsBefore c []
  | c :: d :: rest =>
    if c = '\u17d2' && isSubjoined d then columns rest
    else columnsBefore c (d :: rest) + columns (d :: rest)

@[simp] theorem columns_nil : columns [] = 0 := rfl

@[simp] theorem columns_singleton (c : Char) : columns [c] = columnsBefore c [] := rfl

end RuledMarkup.Text
