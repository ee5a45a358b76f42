import RuledMarkup.Text.Word

/-!
# Sets of characters

What a pattern can ask of a single character.

## Main definitions

* `CharSet` : single characters, ranges, the three named classes, unions and complements.
* `CharSet.mem` : does a character belong to a set.
-/

namespace RuledMarkup

/-- A set of characters, built from single characters, ranges and named classes. -/
inductive CharSet where
  | any
  | one (c : Char)
  | range (first final : Char)
  | word
  | digit
  | space
  | union (a b : CharSet)
  | compl (a : CharSet)
deriving Repr, DecidableEq

namespace CharSet

/-- Does the character belong to the set? -/
def mem : CharSet → Char → Bool
  | any, _ => true
  | one d, c => c == d
  | range first final, c => first ≤ c && c ≤ final
  | word, c => Text.isWord c
  | digit, c => Text.isDigit c
  | space, c => Text.isSpace c
  | union a b, c => a.mem c || b.mem c
  | compl a, c => !a.mem c

/-- The set without characters. -/
def none : CharSet := compl any

/-- The characters of both sets. -/
def inter (a b : CharSet) : CharSet := compl (union (compl a) (compl b))

/-- The characters of the first set that are not in the second. -/
def diff (a b : CharSet) : CharSet := inter a (compl b)

@[simp] theorem mem_none (c : Char) : none.mem c = false := rfl

@[simp] theorem mem_inter (a b : CharSet) (c : Char) :
    (inter a b).mem c = (a.mem c && b.mem c) := by
  simp [inter, mem]

@[simp] theorem mem_diff (a b : CharSet) (c : Char) :
    (diff a b).mem c = (a.mem c && !b.mem c) := by
  simp [diff, mem]

end CharSet

end RuledMarkup
