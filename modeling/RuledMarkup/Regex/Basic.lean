import RuledMarkup.Regex.CodeRanges

/-!
# Regular expressions

Regular expressions as they are matched: characters, positions, sequences, ordered alternatives,
repetitions and groups.

## Main definitions

* `Look` : conditions on positions.
* `Regex` : the expressions.
* `Regex.seq`, `Regex.repeated` : sequences and repetitions in their simplest form.
* `Regex.groupCount`, `Regex.groupIndex?` : the groups of an expression, by number and by name.
* `Regex.isAnchored` : does every match begin at the start of the text.
* `Regex.isNonempty` : does every match use up a character.
-/

namespace RuledMarkup

/-- A condition on where words begin and end. -/
inductive WordLook where
  | edge
  | notEdge
  | start
  | finish
  /-- No word stands before the position. -/
  | startHalf
  /-- No word stands after the position. -/
  | finishHalf
deriving Repr, DecidableEq

/-- A condition on a position between two characters. -/
inductive Look where
  | start
  | finish
  /-- The start of a line.  Lines end with a line feed, or also with a carriage return. -/
  | lineStart (crlf : Bool)
  | lineFinish (crlf : Bool)
  /-- A condition on words, which are made of all word characters or of those in ASCII only. -/
  | word (ascii : Bool) (l : WordLook)
deriving Repr, DecidableEq

/-- An edge of a word. -/
@[match_pattern] abbrev Look.wordEdge : Look := word false .edge

/-- A regular expression.  Of two alternatives the first is preferred; a greedy repetition prefers
to go on and a lazy one to stop. -/
inductive Regex where
  /-- The empty text. -/
  | empty
  /-- One character of a set. -/
  | set (s : CharSet)
  /-- No character, at a position that meets a condition. -/
  | look (l : Look)
  /-- One expression after the other. -/
  | cat (a b : Regex)
  /-- Either expression, preferably the first. -/
  | alt (a b : Regex)
  /-- An expression a number of times: at least `least`, and at most `most` if that is given. -/
  | loop (greedy : Bool) (least : Nat) (most : Option Nat) (r : Regex)
  /-- A numbered group, which may have a name. -/
  | group (index : Nat) (name : Option String) (r : Regex)
  /-- A point that a match passes at most once between two characters. -/
  | checkpoint (mark : Nat)
deriving Repr, DecidableEq

namespace Regex

/-- The set of an expression for one character. -/
def set? : Regex → Option CharSet
  | set s => some s
  | _ => none

/-- One expression after the other.  Sequences lean to the right and have no empty parts. -/
def seq : Regex → Regex → Regex
  | empty, b => b
  | cat a b, c => cat a (seq b c)
  | a, empty => a
  | a, b => cat a b

/-- Expressions one after the other. -/
def sequence (rs : List Regex) : Regex := rs.foldr seq empty

/-- Can the expression match nothing but the empty text? -/
def isZeroWidth : Regex → Bool
  | empty => true
  | set _ => false
  | look _ => true
  | cat a b => a.isZeroWidth && b.isZeroWidth
  | alt a b => a.isZeroWidth && b.isZeroWidth
  | loop _ _ most r => most.isSome && r.isZeroWidth
  | group _ _ r => r.isZeroWidth
  | checkpoint _ => true

/-- A repetition between `least` and `greatest` times, or without upper limit.  Repeating an
expression without width more than once changes nothing, so that is not done. -/
def repeated (greedy : Bool) (least : Nat) (greatest : Option Nat) (r : Regex) : Regex :=
  let least := if r.isZeroWidth then min least 1 else least
  let greatest := if r.isZeroWidth then some (min (greatest.getD 1) 1) else greatest
  if greatest = some 0 then empty
  else if least = 1 ∧ greatest = some 1 then r
  else loop greedy least greatest r

/-- The least number of characters that the expression uses up; nothing if it has a set without
characters in it. -/
def leastLength? : Regex → Option Nat
  | empty => some 0
  | set s => if s.ranges.isEmpty then none else some 1
  | look _ => some 0
  | cat a b => return (← a.leastLength?) + (← b.leastLength?)
  | alt a b => return min (← a.leastLength?) (← b.leastLength?)
  | loop _ least _ r => return least * (← r.leastLength?)
  | group _ _ r => r.leastLength?
  | checkpoint _ => some 0

/-- Is it known that every match uses up a character? -/
def isNonempty (r : Regex) : Bool := r.leastLength?.any (0 < ·)

/-- The groups of an expression with their names, in order of their opening. -/
def groups : Regex → List (Nat × Option String)
  | empty => []
  | set _ => []
  | look _ => []
  | cat a b => a.groups ++ b.groups
  | alt a b => a.groups ++ b.groups
  | loop _ _ _ r => r.groups
  | group index name r => (index, name) :: r.groups
  | checkpoint _ => []

/-- The number of groups, counting the whole match as group zero. -/
def groupCount (r : Regex) : Nat :=
  r.groups.foldl (fun count g => max count (g.1 + 1)) 1

/-- The number of the group with a name. -/
def groupIndex? (r : Regex) (name : String) : Option Nat :=
  (r.groups.find? fun g => g.2 = some name).map (·.1)

/-- Does the expression say that it matches only at the start of the text? -/
def isAnchored : Regex → Bool
  | empty => false
  | set _ => false
  | look l => l = .start
  | cat a _ => a.isAnchored
  | alt a b => a.isAnchored && b.isAnchored
  | loop _ least _ r => 0 < least && r.isAnchored
  | group _ _ r => r.isAnchored
  | checkpoint _ => false

end Regex

end RuledMarkup
