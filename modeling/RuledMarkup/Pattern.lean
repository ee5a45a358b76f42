import RuledMarkup.Captures
import RuledMarkup.Regex.Checkpoints
import RuledMarkup.Regex.Compiler
import RuledMarkup.Regex.Matcher

/-!
# Patterns

A pattern is a regular expression that is put in a group after a start condition, so that it is
matched at the start of a text.  What the group named `ahead` matches is not consumed: the match is
cut where that group begins.

## Main definitions

* `Pattern` : an expression with its written form.
* `Pattern.read`, `Pattern.of` : the pattern with a written form.
* `Pattern.matchStart` : matches a pattern at the start of a text.
-/

namespace RuledMarkup

/-- A regular expression with its written form. -/
structure Pattern where
  /-- The written form, without the start condition. -/
  source : String
  /-- The expression with the start condition. -/
  regex : Regex
deriving Repr, DecidableEq

/-- The value of a reading that is known to succeed. -/
def known {ε α : Type} : (reading : Except ε α) → reading.isOk = true → α
  | .ok value, _ => value
  | .error _, h => nomatch h

theorem known_eq_iff {ε α : Type} {reading : Except ε α} (h : reading.isOk = true) {value : α} :
    known reading h = value ↔ reading = .ok value := by
  cases reading with
  | ok found => simp [known]
  | error e => nomatch h

/-- A text has the given characters. -/
def Spelled (text : String) (chars : List Char) : Prop := text.toList = chars

/-- The characters of a text that is given as a list of them. -/
theorem spelled {text : String} {chars : List Char} (h : text = String.ofList chars) :
    Spelled text chars := by
  rw [Spelled, h, String.toList_ofList]

namespace Spelled

variable {a b : String} {chars more : List Char}

/-- The characters of two texts, one after the other. -/
theorem append (ha : Spelled a chars) (hb : Spelled b more) : Spelled (a ++ b) (chars ++ more) := by
  rw [Spelled, String.toList_append, ha, hb]

/-- The characters of a text with a piece after it that is given as a list of them. -/
theorem next (ha : Spelled a chars) (hb : b = String.ofList more) :
    Spelled (a ++ b) (chars ++ more) :=
  ha.append (spelled hb)

end Spelled

namespace Pattern

/-- The name of the group that is matched but not consumed. -/
def lookaheadGroup : String := "ahead"

/-- The written form with the start condition. -/
def anchoredSource (source : String) : String := "^(?:" ++ source ++ ")"

/-- The pattern with a written form, if the form with the start condition can be read and the
expression is not too large. -/
def read (source : String) (compiler : Regex.Compiler := .standard) :
    Except Regex.ReadError Pattern := do
  let regex ← compiler.read (anchoredSource source).toList
  if compiler.fits regex then .ok ⟨source, regex.guarded⟩ else .error .tooLarge

/-- The characters of the written form with the start condition. -/
def anchoredChars (chars : List Char) : List Char := '^' :: '(' :: '?' :: ':' :: (chars ++ [')'])

/-- The written form with the start condition has those characters. -/
theorem toList_anchoredSource {source : String} {chars : List Char} (h : Spelled source chars) :
    (anchoredSource source).toList = anchoredChars chars := by
  rw [anchoredSource, String.toList_append, String.toList_append, h]
  rfl

/-- The pattern with a written form whose characters are known to make an expression. -/
def of (source : String) {chars : List Char} (_ : Spelled source chars)
    (readable : (Regex.read (anchoredChars chars)).isOk = true) : Pattern :=
  ⟨source, (known (Regex.read (anchoredChars chars)) readable).guarded⟩

/-- A known pattern is the one that its written form describes, if that takes no more memory than
is allowed. -/
theorem read_eq_of {source : String} {chars : List Char} (h : Spelled source chars)
    (readable : (Regex.read (anchoredChars chars)).isOk = true)
    (hfits : (known (Regex.read (anchoredChars chars)) readable).fits = true) :
    read source = .ok (of source h readable) := by
  have hread := (known_eq_iff readable).1 rfl
  rw [read, toList_anchoredSource h, Regex.Compiler.standard]
  dsimp only
  rw [hread]
  exact if_pos hfits

/-- The number of groups, counting group zero. -/
def groupCount (pattern : Pattern) : Nat := pattern.regex.groupCount

/-- The number of the group that is matched but not consumed. -/
def ahead? (pattern : Pattern) : Option Nat := pattern.regex.groupIndex? lookaheadGroup

/-- The captures of a match: group zero runs from the start of the input to the end of the match, or
to the beginning of the lookahead group if that took part. -/
def captures (pattern : Pattern) (input : String) (stop : Cursor) (bindings : Bindings) :
    Captures :=
  let found := fun group => bindings.lookup group
  let size := (((pattern.ahead?.bind found).map (·.start)).getD stop.offset)
  let others := (List.range (pattern.groupCount - 1)).map fun i => found (i + 1)
  ⟨input, some ⟨0, size⟩ :: others⟩

/-- Matches a pattern at the start of a text. -/
def matchStart (pattern : Pattern) (input : String) : Option Captures :=
  (pattern.regex.search input.toList).map fun (stop, bindings) =>
    pattern.captures input stop bindings

end Pattern

end RuledMarkup
