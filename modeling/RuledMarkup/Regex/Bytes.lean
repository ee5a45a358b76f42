import RuledMarkup.Regex.CodeRanges

/-!
# Characters as bytes

The characters of a range are written with one to four bytes each.  A range splits into pieces in
each of which the bytes at every place run through a range of their own, independently of the
others.

## Main definitions

* `CodeRanges.byteSequences` : the pieces of ranges, each as a sequence of ranges of bytes.
-/

namespace RuledMarkup.CodeRanges

/-- A range of bytes for every place. -/
abbrev ByteSequence := List (Nat × Nat)

/-- The place in a range at which it has to be split first: where the number of bytes changes, or
where a byte begins a new round while a byte before it counts up. -/
def split? (first final : Nat) : Option Nat :=
  match [0x7f, 0x7ff, 0xffff].find? fun last => first ≤ last && last < final with
  | some last => some (last + 1)
  | none =>
    if final ≤ 0x7f then none
    else
      [0x40, 0x1000, 0x40000].findSome? fun step =>
        if first / step = final / step then none
        else if first % step ≠ 0 then some ((first / step + 1) * step)
        else if (final + 1) % step ≠ 0 then some (final / step * step)
        else none

/-- The bytes of a character. -/
def bytes (code : Nat) : List Nat := (String.utf8EncodeChar (Char.ofNat code)).map (·.toNat)

/-- The pieces of a range that is split at most `bound` deep. -/
def pieces : Nat → Nat → Nat → List ByteSequence
  | 0, _, _ => []
  | bound + 1, first, final =>
    match split? first final with
    | some middle => pieces bound first (middle - 1) ++ pieces bound middle final
    | none => [(bytes first).zip (bytes final)]

/-- The pieces of ranges of characters, in ascending order.  A range splits at most at the three
places where the number of bytes changes and twice for each place of a byte. -/
def byteSequences (ranges : CodeRanges) : List ByteSequence :=
  ranges.flatMap fun r => pieces 16 r.1 r.2

end RuledMarkup.CodeRanges
