import RuledMarkup.Regex.Basic
import RuledMarkup.Text.Slice

/-!
# Matching regular expressions

Matching tries the ways in which an expression can match in their order of preference and takes the
first one after which the continuation succeeds.  A repetition without upper limit has no more
further rounds than there are characters in the text: a round uses one up, or it begins at a
checkpoint that is passed once at a position.

## Main definitions

* `Cursor` : a position in a text together with the text after it.
* `Regex.run` : matches an expression at a position and goes on with a continuation.
* `Regex.search` : the first match in a text.
-/

namespace RuledMarkup

/-- A position in a text: the character before it, the text after it, the number of bytes before it,
and the checkpoints passed since that character. -/
structure Cursor where
  before : Option Char
  rest : List Char
  offset : Nat
  passed : List Nat := []
deriving Repr, DecidableEq

namespace Cursor

/-- The start of a text. -/
def ofText (text : List Char) : Cursor := ⟨none, text, 0, []⟩

/-- The position after the character `c`, which `rest` follows. -/
def next (cursor : Cursor) (c : Char) (rest : List Char) : Cursor :=
  ⟨some c, rest, cursor.offset + c.utf8Size, []⟩

/-- The position after a checkpoint. -/
def pass (cursor : Cursor) (mark : Nat) : Cursor := { cursor with passed := mark :: cursor.passed }

/-- Does a word character stand before the position? -/
def afterWord (ascii : Bool) (cursor : Cursor) : Bool :=
  cursor.before.any fun c => Text.isWord c && (!ascii || c.toNat < 128)

/-- Does a word character stand after the position? -/
def beforeWord (ascii : Bool) (cursor : Cursor) : Bool :=
  cursor.rest.head?.any fun c => Text.isWord c && (!ascii || c.toNat < 128)

end Cursor

/-- Is a condition on words met where a word character stands before and after, or does not? -/
def WordLook.holds (before after : Bool) : WordLook → Bool
  | edge => before != after
  | notEdge => before == after
  | start => !before && after
  | finish => before && !after
  | startHalf => !before
  | finishHalf => !after

/-- Does a position meet a condition?  Between a carriage return and a line feed no line ends. -/
def Look.holds (cursor : Cursor) : Look → Bool
  | start => cursor.before.isNone
  | finish => cursor.rest.isEmpty
  | lineStart crlf => cursor.before.all fun c =>
      c = '\n' || (crlf && c = '\r' && cursor.rest.head? ≠ some '\n')
  | lineFinish crlf => cursor.rest.head?.all fun c =>
      if crlf then c = '\r' || (c = '\n' && cursor.before ≠ some '\r') else c = '\n'
  | word ascii l => l.holds (cursor.afterWord ascii) (cursor.beforeWord ascii)

/-- The ranges that groups have matched, the latest first. -/
abbrev Bindings : Type := List (Nat × Text.ByteRange)

/-- What happens after a match. -/
abbrev Continuation (α : Type) : Type := Cursor → Bindings → Option α

namespace Regex

/-! ### Runs of characters -/

/-- The position after a number of characters of a set. -/
def skip (s : CharSet) : Nat → Cursor → Option Cursor
  | 0, cursor => some cursor
  | n + 1, cursor =>
    match cursor.rest with
    | [] => none
    | c :: rest => if s.mem c then skip s n (cursor.next c rest) else none

/-- The positions reached through at most a number of characters of a set, the furthest first. -/
def furthestFirst (s : CharSet) : Nat → Cursor → List Cursor → List Cursor
  | 0, cursor, found => cursor :: found
  | n + 1, cursor, found =>
    match cursor.rest with
    | [] => cursor :: found
    | c :: rest =>
      if s.mem c then furthestFirst s n (cursor.next c rest) (cursor :: found)
      else cursor :: found

/-- Goes on at the positions reached through at most a number of characters of a set, the nearest
first. -/
def nearestFirst {α : Type} (s : CharSet) (after : Cursor → Option α) : Nat → Cursor → Option α
  | 0, cursor => after cursor
  | n + 1, cursor =>
    match after cursor with
    | some found => some found
    | none =>
      match cursor.rest with
      | [] => none
      | c :: rest => if s.mem c then nearestFirst s after n (cursor.next c rest) else none

/-- Goes on after at least `least` and at most `more` further characters of a set. -/
def runSet {α : Type} (greedy : Bool) (s : CharSet) (least more : Nat) (cursor : Cursor)
    (after : Cursor → Option α) : Option α :=
  match skip s least cursor with
  | none => none
  | some cursor =>
    if greedy then (furthestFirst s more cursor []).findSome? after
    else nearestFirst s after more cursor

/-! ### Rounds of a repetition -/

/-- A number of rounds. -/
def exactly {α : Type} (round : Continuation α → Continuation α) (after : Continuation α) :
    Nat → Continuation α
  | 0 => after
  | n + 1 => fun cursor bindings => round (exactly round after n) cursor bindings

/-- At most a number of rounds. -/
def upTo {α : Type} (greedy : Bool) (round : Continuation α → Continuation α)
    (after : Continuation α) : Nat → Continuation α
  | 0 => after
  | n + 1 => fun cursor bindings =>
    if greedy then
      match round (upTo greedy round after n) cursor bindings with
      | some found => some found
      | none => after cursor bindings
    else
      match after cursor bindings with
      | some found => some found
      | none => round (upTo greedy round after n) cursor bindings

/-! ### Matching -/

/-- Matches an expression at a position and goes on; the first way of matching after which the
continuation succeeds counts.  `bound` is at least the length of the text, and with it the number of
rounds that a repetition can have beyond those it must have. -/
def run {α : Type} (bound : Nat) : Regex → Continuation α → Continuation α
  | empty, after, cursor, bindings => after cursor bindings
  | set s, after, cursor, bindings =>
    match cursor.rest with
    | [] => none
    | c :: rest => if s.mem c then after (cursor.next c rest) bindings else none
  | look l, after, cursor, bindings => if l.holds cursor then after cursor bindings else none
  | cat a b, after, cursor, bindings =>
    a.run bound (fun cursor bindings => b.run bound after cursor bindings) cursor bindings
  | alt a b, after, cursor, bindings =>
    match a.run bound after cursor bindings with
    | some found => some found
    | none => b.run bound after cursor bindings
  | loop greedy least most r, after, cursor, bindings =>
    let more := (most.map (· - least)).getD bound
    match r.set? with
    | some s => runSet greedy s least more cursor fun cursor => after cursor bindings
    | none => exactly (r.run bound) (upTo greedy (r.run bound) after more) least cursor bindings
  | group index _ r, after, cursor, bindings =>
    r.run bound (fun cursor' bindings' =>
      after cursor' ((index, ⟨cursor.offset, cursor'.offset⟩) :: bindings')) cursor bindings
  | checkpoint mark, after, cursor, bindings =>
    if mark ∈ cursor.passed then none else after (cursor.pass mark) bindings

/-- The first match at a position or, unless the expression is anchored, at a later one. -/
def searchFrom (r : Regex) (bound : Nat) (cursor : Cursor) :
    List Char → Option (Cursor × Bindings)
  | [] => r.run bound (fun cursor bindings => some (cursor, bindings)) cursor []
  | c :: rest =>
    match r.run bound (fun cursor bindings => some (cursor, bindings)) cursor [] with
    | some found => some found
    | none => if r.isAnchored then none else searchFrom r bound (cursor.next c rest) rest

/-- The first match in a text: where it ends and what its groups have matched. -/
def search (r : Regex) (text : List Char) : Option (Cursor × Bindings) :=
  searchFrom r text.length (.ofText text) text

end Regex

end RuledMarkup
