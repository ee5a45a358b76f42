import RuledMarkup.Regex.Basic

/-!
# Checkpoints in repetitions of what may be empty

A repetition without upper limit of an expression that may match the empty text could go round for
ever at one place.  Such an expression gets a checkpoint wherever different ways meet: where a
repetition begins a round, where alternatives come together again, and where a repetition may end.
A match passes no checkpoint twice between two characters, so of several ways through the repetition
only those are left that do not go in a circle.

An expression in which every such repetition uses up a character in each round needs no checkpoints
and is left as it is.

## Main definitions

* `Regex.isPlain` : does an expression need no checkpoints.
* `Regex.guarded` : an expression with its checkpoints.
-/

namespace RuledMarkup.Regex

/-- Does every round of every repetition without upper limit use up a character? -/
def isPlain : Regex → Bool
  | cat a b => a.isPlain && b.isPlain
  | alt a b => a.isPlain && b.isPlain
  | loop _ _ most r => (most.isSome || r.isNonempty) && r.isPlain
  | group _ _ r => r.isPlain
  | checkpoint _ => false
  | _ => true

/-- An expression whose checkpoints have the numbers from a given one on, and the next number. -/
abbrev Numbered := Nat → Regex × Nat

namespace Numbered

/-- An expression without checkpoints of its own. -/
def pure (r : Regex) : Numbered := fun next => (r, next)

/-- One expression after the other. -/
def cat (a b : Numbered) : Numbered := fun next =>
  let (a, next) := a next
  let (b, next) := b next
  (seq a b, next)

/-- Either expression. -/
def alt (a b : Numbered) : Numbered := fun next =>
  let (a, next) := a next
  let (b, next) := b next
  (.alt a b, next)

/-- An expression made of another one. -/
def map (f : Regex → Regex) (r : Numbered) : Numbered := fun next =>
  let (r, next) := r next
  (f r, next)

/-- An expression made with the number of a new checkpoint. -/
def withMark (r : Nat → Numbered) : Numbered := fun next => r next (next + 1)

/-- An expression with a checkpoint after it. -/
def thenCheck (r : Numbered) : Numbered :=
  withMark fun mark => r.cat (pure (.checkpoint mark))

/-- Once or not at all. -/
def optional (greedy : Bool) (r : Numbered) : Numbered :=
  if greedy then r.alt (pure .empty) else (pure .empty).alt r

/-- A number of times, each with checkpoints of its own. -/
def copies (r : Numbered) : Nat → Numbered
  | 0 => pure .empty
  | n + 1 => r.cat (copies r n)

/-- At most a number of times, each with checkpoints of its own; each further time is possible only
after the one before. -/
def atMost (greedy : Bool) (r : Numbered) : Nat → Numbered
  | 0 => pure .empty
  | n + 1 => (r.cat (atMost greedy r n)).optional greedy

/-- A number of times with a limit, each with checkpoints of its own. -/
def limited (greedy : Bool) (least most : Nat) (r : Numbered) : Numbered :=
  if least < most then ((r.copies least).cat (r.atMost greedy (most - least))).thenCheck
  else r.copies least

/-- One or more times, with a checkpoint at the beginning of each round. -/
def rounds (greedy : Bool) (r : Numbered) : Numbered :=
  (withMark fun mark => (pure (.checkpoint mark)).cat r).map (.loop greedy 1 none)

/-- Without limit and with a checkpoint at the beginning of each round, but the rounds that must be
there apart from the last one have checkpoints of their own. -/
def unlimited (greedy : Bool) (least : Nat) (once round : Numbered) : Numbered :=
  if least = 0 then ((round.rounds greedy).optional greedy).thenCheck
  else (once.copies (least - 1)).cat (round.rounds greedy)

/-- Any number of times an expression that uses up characters, with a checkpoint wherever it may
end. -/
def anyTimes (greedy : Bool) (r : Numbered) : Numbered :=
  withMark fun mark =>
    (pure (.checkpoint mark)).cat ((r.cat (pure (.checkpoint mark))).map (.loop greedy 0 none))

end Numbered

/-- An expression with its checkpoints.  `circling` says whether it is in a repetition of what may
be empty. -/
def numbered : Bool → Regex → Numbered
  | circling, cat a b => (numbered circling a).cat (numbered circling b)
  | circling, alt a b =>
    let choice := (numbered circling a).alt (numbered circling b)
    if circling then choice.thenCheck else choice
  | circling, loop greedy least most r =>
    let once := numbered circling r
    if r.isNonempty then
      match most with
      | none =>
        if circling && least = 0 then once.anyTimes greedy else once.map (.loop greedy least none)
      | some limit =>
        let times := once.map (.loop greedy least (some limit))
        if circling && least < limit then times.thenCheck else times
    else
      match most with
      | none => once.unlimited greedy least (numbered true r)
      | some limit =>
        if circling || !r.isPlain then once.limited greedy least limit
        else .pure (loop greedy least most r)
  | circling, group index name r => (numbered circling r).map (.group index name)
  | _, r => .pure r

/-- The expression with its checkpoints. -/
def guarded (r : Regex) : Regex := if r.isPlain then r else (numbered false r 0).1

theorem guarded_of_isPlain {r : Regex} (h : r.isPlain = true) : r.guarded = r := by
  rw [guarded, if_pos h]

end RuledMarkup.Regex
