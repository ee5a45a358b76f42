import RuledMarkup.Parse.Error

/-!
# Captures

What a successful match of a rule tells: the text it was run on, the part at its start that it
consumed, and the ranges of its groups.

## Main definitions

* `Captures` : the groups of a match, as ranges of the matched text.
* `Captures.ofGroups?` : captures from ranges chosen by hand, if they are ranges of the text.
* `Captures.span`, `Captures.group` : a group that must have taken part.
-/

namespace RuledMarkup

/-- The groups of a match.  Group zero is the consumed start of the input. -/
structure Captures where
  input : String
  groups : List (Option Text.ByteRange)
deriving Repr, DecidableEq

namespace Captures

/-- Captures from ranges chosen by hand: group zero must start at the first byte if it is there,
and every range must name a slice of the input. -/
def ofGroups? (input : String) (groups : List (Option Text.ByteRange)) : Option Captures :=
  let startsAtZero := (groups.head?.bind id).all fun r => r.start = 0
  let inInput := groups.all fun group => group.all fun r => (Text.slice? input r).isSome
  if startsAtZero && inInput then some ⟨input, groups⟩ else none

/-- The range of a group, if the group took part in the match. -/
def range? (captures : Captures) (group : Nat) : Option Text.ByteRange :=
  (captures.groups[group]?).bind id

/-- The text of a group, if the group took part in the match. -/
def text? (captures : Captures) (group : Nat) : Option String :=
  (captures.range? group).map (Text.slice captures.input)

/-- The number of bytes consumed. -/
def size (captures : Captures) : Nat := ((captures.range? 0).map (·.stop)).getD 0

/-- The consumed text. -/
def consumed (captures : Captures) : String := Text.slice captures.input ⟨0, captures.size⟩

/-- The number of groups, counting group zero. -/
def count (captures : Captures) : Nat := captures.groups.length

/-- The range of a group that must have taken part in the match. -/
def span (captures : Captures) (group : Nat) : Except ParseError Text.ByteRange :=
  match captures.range? group with
  | some r => .ok r
  | none => .error (.missingGroup group captures.consumed)

/-- The text of a group that must have taken part in the match. -/
def group (captures : Captures) (group : Nat) : Except ParseError String :=
  (captures.span group).map (Text.slice captures.input)

end Captures

end RuledMarkup
