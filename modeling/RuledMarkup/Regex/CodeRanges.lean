import RuledMarkup.Regex.CharSet

/-!
# Sets of characters as ranges

The ranges of code points of a set in ascending order.  Two sets have the same characters just if
they have the same ranges.

## Main definitions

* `CodeRanges` : ranges of code points, both ends included.
* `CharSet.ranges` : the ranges of a set.
* `CharSet.single?` : the character of a set that has just one.
-/

namespace RuledMarkup

/-- Ranges of code points, both ends included, in ascending order and with gaps between them. -/
abbrev CodeRanges := List (Nat × Nat)

namespace CodeRanges

/-- The greatest code point. -/
def last : Nat := 0x10ffff

/-- The ranges of two sets in order of their starts.  `bound` is at least their number. -/
def merge : Nat → CodeRanges → CodeRanges → CodeRanges
  | 0, _, _ => []
  | _ + 1, [], b => b
  | _ + 1, a, [] => a
  | bound + 1, r :: a, s :: b =>
    if r.1 ≤ s.1 then r :: merge bound a (s :: b) else s :: merge bound (r :: a) b

/-- Joins ranges that overlap or touch, given in order of their starts, to a range before them. -/
def joined (before : Nat × Nat) : CodeRanges → CodeRanges
  | [] => [before]
  | r :: rest =>
    if r.1 ≤ before.2 + 1 then joined (before.1, max before.2 r.2) rest
    else before :: joined r rest

/-- The ranges of what two sets have together. -/
def union (a b : CodeRanges) : CodeRanges :=
  match merge (a.length + b.length) a b with
  | [] => []
  | r :: rest => joined r rest

/-- The ranges of what is missing from a set, from the code point `start` on. -/
def gaps (start : Nat) : CodeRanges → CodeRanges
  | [] => if start ≤ last then [(start, last)] else []
  | r :: rest =>
    if start < r.1 then (start, r.1 - 1) :: gaps (r.2 + 1) rest else gaps (r.2 + 1) rest

/-- The ranges without the code points that stand for no character. -/
def ofChars (ranges : CodeRanges) : CodeRanges :=
  ranges.flatMap fun r =>
    let below := (r.1, min r.2 0xd7ff)
    let above := (max r.1 0xe000, r.2)
    [below, above].filter fun r => r.1 ≤ r.2

end CodeRanges

namespace CharSet

open CodeRanges

/-- The ranges of the word characters. -/
def wordRanges : CodeRanges :=
  [(0x30, 0x39), (0x41, 0x5a), (0x5f, 0x5f), (0x61, 0x7a)] ++ Text.wordTable.toList

/-- The ranges of the decimal digits. -/
def digitRanges : CodeRanges := (0x30, 0x39) :: Text.digitTable.toList

/-- The ranges of white space. -/
def spaceRanges : CodeRanges :=
  [(9, 13), (0x20, 0x20), (0x85, 0x85), (0xa0, 0xa0), (0x1680, 0x1680), (0x2000, 0x200a),
    (0x2028, 0x2029), (0x202f, 0x202f), (0x205f, 0x205f), (0x3000, 0x3000)]

/-- The ranges of the code points of a set. -/
def codeRanges : CharSet → CodeRanges
  | any => [(0, last)]
  | one c => [(c.toNat, c.toNat)]
  | range first final => if first ≤ final then [(first.toNat, final.toNat)] else []
  | word => wordRanges
  | digit => digitRanges
  | space => spaceRanges
  | union a b => a.codeRanges.union b.codeRanges
  | compl a => gaps 0 a.codeRanges

/-- The ranges of the characters of a set. -/
def ranges (s : CharSet) : CodeRanges := ofChars s.codeRanges

/-- The character of a set that has just one. -/
def single? : CharSet → Option Char
  | one c => some c
  | any => Option.none
  | word => Option.none
  | digit => Option.none
  | space => Option.none
  | s =>
    match s.ranges with
    | [(first, final)] => if first = final then some (Char.ofNat first) else Option.none
    | _ => Option.none

/-- Have two sets the same characters? -/
def same (a b : CharSet) : Bool := a = b || a.ranges = b.ranges

end CharSet

end RuledMarkup
