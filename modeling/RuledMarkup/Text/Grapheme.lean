import RuledMarkup.Text.GraphemeClass

/-!
# Graphemes of a text

A text falls into graphemes from its start on.  Between two characters there is a border unless
their classes, and sometimes what stands before them in the grapheme, join them.

## Main definitions

* `GraphemeTail` : what the end of a grapheme may be joined to, beyond the class of its last
  character.
* `graphemes` : the graphemes of a text.

## Main results

* `flatten_graphemes` : the graphemes of a text make up the text.
-/

namespace RuledMarkup.Text

/-- What the end of a grapheme may be joined to. -/
inductive GraphemeTail where
  | nothing
  /-- A consonant and marks on it, none of which joins it to another. -/
  | consonant
  /-- A consonant and marks on it, one of which joins it to another. -/
  | conjunct
  /-- A picture and marks on it. -/
  | pictograph
  /-- A picture and marks on it, then the mark that joins it to another. -/
  | joinedPictograph
  /-- A letter that can begin a flag. -/
  | regional
deriving DecidableEq, Repr

namespace GraphemeTail

/-- The tail after a mark of a class. -/
def mark (tail : GraphemeTail) (next : GraphemeClass) : GraphemeTail :=
  match tail, next with
  | .consonant, .nonJoiner => .nothing
  | .consonant, .linker => .conjunct
  | .consonant, _ => .consonant
  | .conjunct, .nonJoiner => .nothing
  | .conjunct, _ => .conjunct
  | .pictograph, .joiner => .joinedPictograph
  | .pictograph, _ => .pictograph
  | _, _ => .nothing

/-- The tail after a character of a class. -/
def next (tail : GraphemeTail) (next : GraphemeClass) : GraphemeTail :=
  match next with
  | .extend | .linker | .nonJoiner | .joiner => tail.mark next
  | .consonant => .consonant
  | .pictograph => .pictograph
  | .regional => if tail = .regional then .nothing else .regional
  | _ => .nothing

/-- Is a tail joined to a character of a class? -/
def joins (tail : GraphemeTail) (next : GraphemeClass) : Bool :=
  match tail, next with
  | .conjunct, .consonant => true
  | .joinedPictograph, .pictograph => true
  | .regional, .regional => true
  | _, _ => false

end GraphemeTail

namespace GraphemeClass

/-- Is a character a grapheme of its own, a line end of two characters apart? -/
def isSeparate : GraphemeClass → Bool
  | carriageReturn | lineFeed | control => true
  | _ => false

/-- Does a character belong to the one before it? -/
def isMark : GraphemeClass → Bool
  | extend | linker | nonJoiner | joiner | spacing => true
  | _ => false

/-- May two Korean letters or syllables stand in one syllable? -/
def joinsSyllable : GraphemeClass → GraphemeClass → Bool
  | leading, leading | leading, vowel | leading, openSyllable | leading, closedSyllable => true
  | vowel, vowel | vowel, trailing | openSyllable, vowel | openSyllable, trailing => true
  | trailing, trailing | closedSyllable, trailing => true
  | _, _ => false

/-- Does a character belong to the grapheme that ends in a character of the class `last` and in the
given tail? -/
def continues (next last : GraphemeClass) (tail : GraphemeTail) : Bool :=
  if last.isSeparate || next.isSeparate then last = carriageReturn && next = lineFeed
  else next.isMark || last = before || last.joinsSyllable next || tail.joins next

end GraphemeClass

/-- The rest of the grapheme that ends so far in a character of the class `last` and in a tail, and
the graphemes after it. -/
def graphemesAfter (last : GraphemeClass) (tail : GraphemeTail) :
    List Char → List Char × List (List Char)
  | [] => ([], [])
  | c :: cs =>
    let next := graphemeClass c
    let (first, others) := graphemesAfter next (tail.next next) cs
    if next.continues last tail then (c :: first, others) else ([], (c :: first) :: others)

/-- The graphemes of a text.  Nothing belongs to what stands before a text. -/
def graphemes (cs : List Char) : List (List Char) := (graphemesAfter .control .nothing cs).2

theorem flatten_graphemesAfter (last : GraphemeClass) (tail : GraphemeTail) (cs : List Char) :
    (graphemesAfter last tail cs).1 ++ (graphemesAfter last tail cs).2.flatten = cs := by
  induction cs generalizing last tail with
  | nil => rfl
  | cons c cs ih =>
    have rest := ih (graphemeClass c) (tail.next (graphemeClass c))
    simp only [graphemesAfter]
    split <;> simp [rest]

theorem fst_graphemesAfter_control (tail : GraphemeTail) (cs : List Char) :
    (graphemesAfter .control tail cs).1 = [] := by
  cases cs with
  | nil => rfl
  | cons c cs => simp [graphemesAfter, GraphemeClass.continues, GraphemeClass.isSeparate]

/-- The graphemes of a text make up the text. -/
@[simp] theorem flatten_graphemes (cs : List Char) : (graphemes cs).flatten = cs := by
  have whole := flatten_graphemesAfter .control .nothing cs
  rwa [fst_graphemesAfter_control, List.nil_append] at whole

end RuledMarkup.Text
