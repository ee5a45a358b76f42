import Mathlib.Tactic.Common
import RuledMarkup.Regex.Matcher

/-!
# The ways in which an expression matches

The matcher goes on with a continuation at every position at which a match may end, in the order of
preference, until the continuation succeeds.  Here the positions are listed instead.

## Main definitions

* `Regex.Way` : the position at which a match ends and the ranges of the groups.
* `Regex.ways` : the ways in which an expression matches at a position, the preferred ones first.

## Main results

* `Regex.run_eq_findSome?_ways` : a match counts whose way is the first one to please the
  continuation.
* `Regex.search_eq_head?_ways` : an anchored search finds the first way at the start of the text.
-/

namespace RuledMarkup.Regex

/-- The position at which a match ends and the ranges of the groups, the latest first. -/
abbrev Way : Type := Cursor × Bindings

/-- The ways of a number of rounds, each of which starts where the one before has ended. -/
def waysExactly (round : Way → List Way) : Nat → Way → List Way
  | 0, way => [way]
  | n + 1, way => (round way).flatMap (waysExactly round n)

/-- The ways of at most a number of rounds. -/
def waysUpTo (greedy : Bool) (round : Way → List Way) : Nat → Way → List Way
  | 0, way => [way]
  | n + 1, way =>
    let further := (round way).flatMap (waysUpTo greedy round n)
    if greedy then further ++ [way] else way :: further

/-- The ways in which an expression matches at a position, the preferred ones first. -/
def ways (bound : Nat) : Regex → Way → List Way
  | empty, way => [way]
  | set s, way =>
    match way.1.rest with
    | [] => []
    | c :: rest => if s.mem c then [(way.1.next c rest, way.2)] else []
  | look l, way => if l.holds way.1 then [way] else []
  | cat a b, way => (a.ways bound way).flatMap (b.ways bound)
  | alt a b, way => a.ways bound way ++ b.ways bound way
  | loop greedy least most r, way =>
    (waysExactly (r.ways bound) least way).flatMap
      (waysUpTo greedy (r.ways bound) ((most.map (· - least)).getD bound))
  | group index _ r, way =>
    (r.ways bound way).map fun way' =>
      (way'.1, (index, ⟨way.1.offset, way'.1.offset⟩) :: way'.2)
  | checkpoint mark, way => if mark ∈ way.1.passed then [] else [(way.1.pass mark, way.2)]

theorem findSome?_flatMap {α β γ : Type} (l : List α) (f : α → List β) (g : β → Option γ) :
    (l.flatMap f).findSome? g = l.findSome? fun a => (f a).findSome? g := by
  induction l with
  | nil => rfl
  | cons a l ih =>
    rw [List.flatMap_cons, List.findSome?_append, ih, List.findSome?_cons]
    cases (f a).findSome? g <;> rfl

section Rounds

variable {α : Type} {round : Continuation α → Continuation α} {roundWays : Way → List Way}
  (hround : ∀ after way,
    round after way.1 way.2 = (roundWays way).findSome? fun way => after way.1 way.2)
  (after : Continuation α)

include hround

theorem exactly_eq_findSome? (n : Nat) (way : Way) :
    exactly round after n way.1 way.2 =
      (waysExactly roundWays n way).findSome? fun way => after way.1 way.2 := by
  induction n generalizing way with
  | zero => simp [exactly, waysExactly]
  | succ n ih =>
    simp only [exactly, hround, waysExactly, findSome?_flatMap]
    exact congrArg (fun f => (roundWays way).findSome? f) (funext ih)

theorem upTo_eq_findSome? (greedy : Bool) (n : Nat) (way : Way) :
    upTo greedy round after n way.1 way.2 =
      (waysUpTo greedy roundWays n way).findSome? fun way => after way.1 way.2 := by
  induction n generalizing way with
  | zero => simp [upTo, waysUpTo]
  | succ n ih =>
    have hfurther : round (upTo greedy round after n) way.1 way.2 =
        ((roundWays way).flatMap (waysUpTo greedy roundWays n)).findSome?
          fun way => after way.1 way.2 := by
      rw [hround, findSome?_flatMap]
      exact congrArg (fun f => (roundWays way).findSome? f) (funext ih)
    cases greedy with
    | true =>
      simp only [upTo, waysUpTo, if_true, List.findSome?_append, List.findSome?_singleton, hfurther]
      cases ((roundWays way).flatMap (waysUpTo true roundWays n)).findSome?
        fun way => after way.1 way.2 <;> rfl
    | false =>
      simp only [upTo, waysUpTo, Bool.false_eq_true, if_false, List.findSome?_cons, hfurther]
      cases after way.1 way.2 <;> rfl

end Rounds

/-! ### Runs of characters -/

/-- Exactly as many characters of a set can be skipped in one way only. -/
theorem waysExactly_set (bound : Nat) (s : CharSet) (n : Nat) (cursor : Cursor)
    (bindings : Bindings) :
    waysExactly ((set s).ways bound) n (cursor, bindings) =
      ((skip s n cursor).map (·, bindings)).toList := by
  induction n generalizing cursor with
  | zero => rfl
  | succ n ih =>
    rw [waysExactly, ways, skip]
    cases cursor.rest with
    | nil => rfl
    | cons c rest =>
      by_cases hc : s.mem c = true
      · simpa [hc] using ih _
      · simp [hc]

theorem furthestFirst_eq_waysUpTo (bound : Nat) (s : CharSet) (n : Nat) (cursor : Cursor)
    (found : List Cursor) (bindings : Bindings) :
    (furthestFirst s n cursor found).map (·, bindings) =
      waysUpTo true ((set s).ways bound) n (cursor, bindings) ++ found.map (·, bindings) := by
  induction n generalizing cursor found with
  | zero => rfl
  | succ n ih =>
    rw [furthestFirst, waysUpTo, ways]
    cases cursor.rest with
    | nil => simp
    | cons c rest =>
      by_cases hc : s.mem c = true
      · simpa only [hc, if_true, List.flatMap_singleton, List.map_cons, List.append_assoc,
          List.singleton_append] using ih (cursor.next c rest) (cursor :: found)
      · simp [hc]

theorem nearestFirst_eq_findSome? {α : Type} (bound : Nat) (s : CharSet) (after : Continuation α)
    (n : Nat) (cursor : Cursor) (bindings : Bindings) :
    nearestFirst s (fun cursor => after cursor bindings) n cursor =
      (waysUpTo false ((set s).ways bound) n (cursor, bindings)).findSome?
        fun way => after way.1 way.2 := by
  induction n generalizing cursor with
  | zero => simp [nearestFirst, waysUpTo]
  | succ n ih =>
    rw [nearestFirst, waysUpTo, ways]
    cases cursor.rest with
    | nil => cases h : after cursor bindings <;> simp [h]
    | cons c rest =>
      by_cases hc : s.mem c = true
      · cases h : after cursor bindings <;> simp [h, hc, ih]
      · cases h : after cursor bindings <;> simp [h, hc]

/-- A run of characters of a set is a repetition of the set. -/
theorem runSet_eq_findSome?_ways {α : Type} (bound : Nat) (greedy : Bool) (s : CharSet)
    (least more : Nat) (after : Continuation α) (cursor : Cursor) (bindings : Bindings) :
    runSet greedy s least more cursor (fun cursor => after cursor bindings) =
      ((waysExactly ((set s).ways bound) least (cursor, bindings)).flatMap
        (waysUpTo greedy ((set s).ways bound) more)).findSome? fun way => after way.1 way.2 := by
  rw [runSet, waysExactly_set]
  cases skip s least cursor with
  | none => rfl
  | some cursor =>
    simp only [Option.map_some, Option.toList_some, List.flatMap_singleton]
    cases greedy with
    | true =>
      have h := furthestFirst_eq_waysUpTo bound s more cursor [] bindings
      rw [List.map_nil, List.append_nil] at h
      simp [← h, List.findSome?_map, Function.comp_def]
    | false => exact nearestFirst_eq_findSome? bound s after more cursor bindings

theorem eq_set_of_set? {r : Regex} {s : CharSet} (h : r.set? = some s) : r = set s := by
  cases r with
  | set t =>
    cases h
    rfl
  | _ => cases h

/-! ### Matching -/

/-- The first way counts after which the continuation succeeds. -/
theorem run_eq_findSome?_ways {α : Type} (bound : Nat) (r : Regex) (after : Continuation α)
    (way : Way) :
    r.run bound after way.1 way.2 = (r.ways bound way).findSome? fun way => after way.1 way.2 := by
  induction r generalizing after way with
  | empty => simp [run, ways]
  | set s =>
    simp only [run, ways]
    cases way.1.rest with
    | nil => rfl
    | cons c rest =>
      by_cases hc : s.mem c = true <;> simp [hc]
  | look l =>
    by_cases hl : l.holds way.1 = true <;> simp [run, ways, hl]
  | cat a b iha ihb =>
    simp only [run, ways, findSome?_flatMap, iha]
    exact congrArg (fun f => (a.ways bound way).findSome? f) (funext fun way => ihb after way)
  | alt a b iha ihb =>
    simp only [run, ways, List.findSome?_append, iha, ihb]
    cases (a.ways bound way).findSome? fun way => after way.1 way.2 <;> rfl
  | loop greedy least most r ih =>
    simp only [run, ways]
    cases hset : r.set? with
    | some s =>
      obtain rfl := eq_set_of_set? hset
      exact runSet_eq_findSome?_ways bound greedy s least _ after way.1 way.2
    | none =>
      simp only [findSome?_flatMap]
      rw [exactly_eq_findSome? ih]
      exact congrArg (fun f => (waysExactly (r.ways bound) least way).findSome? f)
        (funext fun way => upTo_eq_findSome? ih after greedy _ way)
  | group index name r ih =>
    simp only [run, ways, List.findSome?_map]
    exact ih _ way
  | checkpoint mark =>
    by_cases hmark : mark ∈ way.1.passed <;> simp [run, ways, hmark]

theorem findSome?_some {α : Type} (l : List α) : l.findSome? some = l.head? := by
  cases l <;> rfl

/-- At one position the matcher finds the first way. -/
theorem run_some_eq_head? (r : Regex) (bound : Nat) (cursor : Cursor) :
    r.run bound (fun cursor bindings => some (cursor, bindings)) cursor [] =
      (r.ways bound (cursor, [])).head? :=
  (run_eq_findSome?_ways bound r _ (cursor, [])).trans (findSome?_some _)

theorem searchFrom_nil (r : Regex) (bound : Nat) (cursor : Cursor) :
    r.searchFrom bound cursor [] = (r.ways bound (cursor, [])).head? :=
  run_some_eq_head? r bound cursor

/-- A search finds the first way at a position or, unless the expression is anchored, at a later
one. -/
theorem searchFrom_cons (r : Regex) (bound : Nat) (cursor : Cursor) (c : Char)
    (rest : List Char) :
    r.searchFrom bound cursor (c :: rest) =
      (r.ways bound (cursor, [])).head?.or
        (if r.isAnchored then none else r.searchFrom bound (cursor.next c rest) rest) := by
  rw [searchFrom, run_some_eq_head?]
  cases (r.ways bound (cursor, [])).head? <;> rfl

/-- An anchored search finds the first way at the start of the text. -/
theorem search_eq_head?_ways {r : Regex} (h : r.isAnchored = true) (text : List Char) :
    r.search text = (r.ways text.length (.ofText text, [])).head? := by
  cases text with
  | nil => exact searchFrom_nil r _ _
  | cons c rest => rw [search, searchFrom_cons, if_pos h, Option.or_none]

end RuledMarkup.Regex
