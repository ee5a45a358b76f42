import RuledMarkup.Regex.Bytes
import RuledMarkup.Regex.Basic

/-!
# Memory that an expression takes

An expression is refused if the automata for it, one that reads a text forwards and one that reads
it backwards, take too much memory.  They read bytes, and every copy of what is repeated a fixed
number of times has states of its own.  The memory is an estimate, and only the standard compiler
goes by it: what is shown of patterns holds with any limit.

## Main definitions

* `Regex.footprint` : the memory of an automaton.
* `Regex.fits` : does an expression take no more memory than is allowed.
-/

namespace RuledMarkup

namespace CodeRanges

/-- The bytes of memory for a state. -/
def stateSize : Nat := 32

/-- The memory for a set of characters of one byte each: a state with its ways out, and a state
after it. -/
def asciiFootprint (ranges : CodeRanges) : Nat := 2 * stateSize + 8 * ranges.length

/-- Are all characters written with one byte? -/
def isAscii (ranges : CodeRanges) : Bool := ranges.all (·.2 ≤ 0x7f)

/-- What may follow each of the first ranges of bytes. -/
def followers : List ByteSequence → List (List ByteSequence)
  | [] => []
  | [] :: rest => followers rest
  | (range :: tail) :: rest =>
    match rest, followers rest with
    | (next :: _) :: _, group :: groups =>
      if next = range then (tail :: group) :: groups else [tail] :: group :: groups
    | _, groups => [tail] :: groups

/-- The different sets of sequences that may follow the start of a sequence of at most `depth`
bytes. -/
def tails : Nat → List (List ByteSequence) → List (List ByteSequence)
  | 0, _ => []
  | depth + 1, level =>
    let level := (level.filter fun sequences => sequences ≠ [[]]).eraseDups
    level ++ tails depth (level.flatMap followers)

/-- The memory for a set that is read forwards: a state for every set of sequences that may follow,
with a way out for each of their first ranges. -/
def forwardFootprint (ranges : CodeRanges) : Nat :=
  if ranges.isAscii then ranges.asciiFootprint
  else
    (tails 4 [ranges.byteSequences]).eraseDups.foldl
      (fun size sequences => size + stateSize + 8 * (followers sequences).length) stateSize

/-- The number of ranges of bytes with which two sequences begin in common. -/
def commonLength : ByteSequence → ByteSequence → Nat
  | a :: as, b :: bs => if a = b then commonLength as bs + 1 else 0
  | _, _ => 0

/-- The memory for sequences that are read backwards, after the sequence `before`: a way in, and a
state for every range of bytes that is not shared with the beginning of the sequence before. -/
def backwardStates (before : ByteSequence) : List ByteSequence → Nat
  | [] => 0
  | sequence :: rest =>
    4 + stateSize * (sequence.length - commonLength before sequence) + backwardStates sequence rest

/-- The memory for a set that is read backwards. -/
def backwardFootprint (ranges : CodeRanges) : Nat :=
  if ranges.isAscii then ranges.asciiFootprint
  else 2 * stateSize + backwardStates [] ranges.byteSequences

end CodeRanges

namespace Regex

open CodeRanges (stateSize)

/-- The memory for a state with two ways out. -/
def forkSize : Nat := stateSize + 8

/-- The memory of an automaton without its start and its end, given that for sets and for the two
borders of a group. -/
def footprint (setSize : CodeRanges → Nat) (groupSize : Nat) : Regex → Nat
  | empty => stateSize
  | set s =>
    match s.single? with
    | some c => stateSize * c.utf8Size
    | none => setSize s.ranges
  | look _ => stateSize
  | cat a b => a.footprint setSize groupSize + b.footprint setSize groupSize
  | alt a b =>
    let last := match b with | alt _ _ => 0 | _ => forkSize + stateSize - 4
    a.footprint setSize groupSize + 4 + b.footprint setSize groupSize + last
  | loop _ least most r =>
    let once := r.footprint setSize groupSize
    match most with
    | none =>
      if least = 0 then if r.isNonempty then forkSize + once else 2 * forkSize + stateSize + once
      else least * once + forkSize
    | some limit =>
      if least = limit then least * once
      else
        (if least = 0 then stateSize else least * once) + stateSize
          + (limit - least) * (forkSize + once)
  | group _ _ r => groupSize + r.footprint setSize groupSize
  | checkpoint _ => 0

/-- The memory that an automaton may take. -/
def allowedFootprint : Nat := 10 <<< 20

/-- The memory for the start of an automaton that may begin anywhere in a text. -/
def searchSize : Nat := 2 * stateSize + 8 + forkSize

/-- The memory for the automaton that reads forwards. -/
def forwardFootprint (r : Regex) : Nat :=
  (if r.isAnchored then stateSize else searchSize) + 3 * stateSize
    + r.footprint CodeRanges.forwardFootprint (2 * stateSize)

/-- The memory for the automaton that reads backwards. -/
def backwardFootprint (r : Regex) : Nat :=
  searchSize + stateSize + r.footprint CodeRanges.backwardFootprint 0

/-- Does the expression take no more memory than is allowed? -/
def fits (r : Regex) : Bool :=
  r.forwardFootprint ≤ allowedFootprint && r.backwardFootprint ≤ allowedFootprint

end Regex

end RuledMarkup
