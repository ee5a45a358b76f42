import Mathlib.Data.List.Basic
import RuledMarkup.Regex.Alternatives
import RuledMarkup.Regex.Checkpoints

/-!
# Expressions with other numbers

An expression in a larger one has groups whose numbers begin after those of the groups before it,
and checkpoints whose numbers begin after theirs.  Apart from these numbers it is what it is alone:
none of what is done with expressions depends on them.

## Main definitions

* `Regex.shift` : an expression with greater numbers.
* `Numbered.Shifts` : the same expression, numbered from a greater number on.

## Main results

* `Regex.shift_alternatives` : alternatives are simplified alike.
* `Regex.shifts_numbered` : checkpoints are put in alike.
-/

namespace RuledMarkup.Regex

/-- The expression with greater numbers of checkpoints and of groups. -/
def shift (marks groups : Nat) : Regex → Regex
  | cat a b => cat (a.shift marks groups) (b.shift marks groups)
  | alt a b => alt (a.shift marks groups) (b.shift marks groups)
  | loop greedy least most r => loop greedy least most (r.shift marks groups)
  | group index name r => group (groups + index) name (r.shift marks groups)
  | checkpoint mark => checkpoint (marks + mark)
  | r => r

@[simp] theorem shift_zero (r : Regex) : r.shift 0 0 = r := by
  induction r <;> simp_all [shift]

@[simp] theorem seq_empty (r : Regex) : seq r empty = r := by
  induction r with
  | cat a b _ ih => rw [seq, ih]
  | _ => rfl

variable (marks groups : Nat)

/-! ### Sequences, repetitions and alternatives -/

@[simp] theorem shift_seq (a b : Regex) :
    (seq a b).shift marks groups = seq (a.shift marks groups) (b.shift marks groups) := by
  induction a with
  | empty => rfl
  | cat a a' _ ih => simp only [seq, shift, ih]
  | _ => cases b <;> rfl

theorem shift_sequence (rs : List Regex) :
    (sequence rs).shift marks groups = sequence (rs.map (shift marks groups)) := by
  induction rs with
  | nil => rfl
  | cons r rs ih =>
    simp only [sequence, List.foldr_cons, List.map_cons, shift_seq] at ih ⊢
    rw [ih]

@[simp] theorem isZeroWidth_shift (r : Regex) :
    (r.shift marks groups).isZeroWidth = r.isZeroWidth := by
  induction r <;> simp_all [shift, isZeroWidth]

@[simp] theorem leastLength?_shift (r : Regex) :
    (r.shift marks groups).leastLength? = r.leastLength? := by
  induction r <;> simp_all [shift, leastLength?]

@[simp] theorem isNonempty_shift (r : Regex) :
    (r.shift marks groups).isNonempty = r.isNonempty := by
  rw [isNonempty, leastLength?_shift, isNonempty]

@[simp] theorem isPlain_shift (r : Regex) : (r.shift marks groups).isPlain = r.isPlain := by
  induction r <;> simp_all [shift, isPlain]

theorem shift_repeated (greedy : Bool) (least : Nat) (greatest : Option Nat) (r : Regex) :
    (r.repeated greedy least greatest).shift marks groups =
      (r.shift marks groups).repeated greedy least greatest := by
  simp only [repeated, isZeroWidth_shift]
  split_ifs <;> rfl

@[simp] theorem set?_shift (r : Regex) : (r.shift marks groups).set? = r.set? := by
  cases r <;> rfl

@[simp] theorem nodeCount_shift (r : Regex) :
    (r.shift marks groups).nodeCount = r.nodeCount := by
  induction r <;> simp_all [shift, nodeCount]

theorem branches_shift (r : Regex) :
    (r.shift marks groups).branches = r.branches.map (shift marks groups) := by
  induction r <;> simp_all [shift, branches]

theorem items_shift (r : Regex) :
    (r.shift marks groups).items = r.items.map (shift marks groups) := by
  induction r <;> simp_all [shift, items]

@[simp] theorem beginsLiteral_shift (r : Regex) :
    (r.shift marks groups).beginsLiteral = r.beginsLiteral := by
  induction r <;> simp_all [shift, beginsLiteral]

theorem parts_shift (r : Regex) :
    (r.shift marks groups).parts = r.parts.map (shift marks groups) := by
  rw [parts, items_shift, parts]
  induction r.items with
  | nil => rfl
  | cons item items ih =>
    rw [List.map_cons, List.foldr_cons, List.foldr_cons, ih]
    cases items.foldr addItem [] with
    | nil => rfl
    | cons part rest =>
      simp only [addItem, List.map_cons, beginsLiteral_shift]
      split_ifs <;> rfl

@[simp] theorem same_shift (a b : Regex) :
    (a.shift marks groups).same (b.shift marks groups) = a.same b := by
  induction a generalizing b with
  | cat a a' iha iha' =>
    cases b with
    | cat b b' => simp only [shift, same, iha, iha']
    | _ => rfl
  | alt a a' iha iha' =>
    cases b with
    | alt b b' => simp only [shift, same, iha, iha']
    | _ => rfl
  | loop greedy least most r ih =>
    cases b with
    | loop => simp only [shift, same, ih]
    | _ => rfl
  | group index name r ih =>
    cases b with
    | group => simp only [shift, same, ih, Nat.add_left_cancel_iff]
    | _ => rfl
  | checkpoint mark =>
    cases b with
    | checkpoint => simp only [shift, same, Nat.add_left_cancel_iff]
    | _ => rfl
  | _ => cases b <;> rfl

theorem commonParts_shift (as bs : List Regex) :
    commonParts (as.map (shift marks groups)) (bs.map (shift marks groups)) =
      (commonParts as bs).map (shift marks groups) := by
  induction as generalizing bs with
  | nil => rfl
  | cons a as ih =>
    cases bs with
    | nil => rfl
    | cons b bs =>
      simp only [List.map_cons, commonParts, same_shift]
      split_ifs
      · rw [List.map_cons, ih]
      · rfl

theorem sharedParts_shift (lists : List (List Regex)) :
    sharedParts (lists.map (List.map (shift marks groups))) =
      (sharedParts lists).map (shift marks groups) := by
  have hfold (first : List Regex) (others : List (List Regex)) :
      (others.map (List.map (shift marks groups))).foldl commonParts
          (first.map (shift marks groups)) =
        (others.foldl commonParts first).map (shift marks groups) := by
    induction others generalizing first with
    | nil => rfl
    | cons other others ih =>
      rw [List.map_cons, List.foldl_cons, List.foldl_cons, commonParts_shift, ih]
  cases lists with
  | nil => rfl
  | cons first others =>
    have hlong : ((first :: others).map (List.map (shift marks groups))).all (2 ≤ ·.length) =
        (first :: others).all (2 ≤ ·.length) := by
      simp [List.all_map, Function.comp_def]
    simp only [List.map_cons] at hlong
    simp only [List.map_cons, sharedParts, hlong]
    split_ifs
    · exact hfold first others
    · rfl

theorem choice_shift (rs : List Regex) :
    choice (rs.map (shift marks groups)) = (choice rs).shift marks groups := by
  induction rs with
  | nil => rfl
  | cons r rs ih =>
    cases rs with
    | nil => rfl
    | cons s rs =>
      simp only [List.map_cons, choice, shift] at ih ⊢
      rw [ih]

theorem simplest_shift (bound : Nat) (rs : List Regex) :
    simplest bound (rs.map (shift marks groups)) = (simplest bound rs).shift marks groups := by
  have hbranches (rs : List Regex) : (rs.map (shift marks groups)).flatMap branches =
      (rs.flatMap branches).map (shift marks groups) := by
    simp [List.flatMap_map, List.map_flatMap, branches_shift]
  induction bound generalizing rs with
  | zero => rw [simplest, simplest, hbranches, choice_shift]
  | succ bound ih =>
    rw [simplest, simplest, hbranches]
    generalize rs.flatMap branches = rs
    have hsets : (rs.map (shift marks groups)).mapM set? = rs.mapM set? := by
      simp [List.mapM_map, Function.comp_def]
    have hlists : (rs.map (shift marks groups)).map parts =
        (rs.map parts).map (List.map (shift marks groups)) := by
      simp [parts_shift]
    have hshared := sharedParts_shift marks groups (rs.map parts)
    rcases rs with _ | ⟨r, _ | ⟨s, rest⟩⟩
    · rfl
    · rfl
    · simp only [List.map_cons] at hsets hlists hshared ⊢
      rw [hsets]
      split
      · rfl
      · simp only [hlists, hshared, List.isEmpty_map, List.length_map]
        split_ifs
        · exact choice_shift marks groups (r :: s :: rest)
        · rw [shift_sequence, List.map_append, List.map_singleton, ← ih]
          simp [parts_shift, shift_sequence, Function.comp_def]

/-- Alternatives are simplified alike, whatever their numbers are. -/
theorem shift_alternatives (rs : List Regex) :
    (alternatives rs).shift marks groups = alternatives (rs.map (shift marks groups)) := by
  rw [alternatives, ← simplest_shift]
  cases rs with
  | nil => rfl
  | cons r rs => simp [alternatives]

/-! ### Checkpoints -/

namespace Numbered

/-- Whatever the number of the next checkpoint is, the second expression with numbers from a greater
one on is the first one with greater numbers. -/
def Shifts (r r' : Numbered) : Prop :=
  ∀ next, r' (marks + next) = ((r next).1.shift marks groups, marks + (r next).2)

variable {marks groups} {r r' s s' once once' round round' : Numbered}

theorem Shifts.pure {r r' : Regex} (h : r' = r.shift marks groups) :
    Shifts marks groups (Numbered.pure r) (Numbered.pure r') := by
  intro next
  rw [Numbered.pure, Numbered.pure, h]

theorem Shifts.cat (hr : Shifts marks groups r r') (hs : Shifts marks groups s s') :
    Shifts marks groups (r.cat s) (r'.cat s') := by
  intro next
  simp only [Numbered.cat, hr next, hs (r next).2, shift_seq]

theorem Shifts.alt (hr : Shifts marks groups r r') (hs : Shifts marks groups s s') :
    Shifts marks groups (r.alt s) (r'.alt s') := by
  intro next
  simp only [Numbered.alt, hr next, hs (r next).2, shift]

theorem Shifts.map (hr : Shifts marks groups r r') {f f' : Regex → Regex}
    (hf : ∀ r, f' (r.shift marks groups) = (f r).shift marks groups) :
    Shifts marks groups (r.map f) (r'.map f') := by
  intro next
  simp only [Numbered.map, hr next, hf]

/-- A checkpoint of their own is given to both expressions. -/
theorem Shifts.withMark {r r' : Nat → Numbered}
    (h : ∀ mark, Shifts marks groups (r mark) (r' (marks + mark))) :
    Shifts marks groups (Numbered.withMark r) (Numbered.withMark r') := by
  intro next
  exact h next (next + 1)

theorem Shifts.checkpoint (mark : Nat) : Shifts marks groups (Numbered.pure (.checkpoint mark))
    (Numbered.pure (.checkpoint (marks + mark))) :=
  .pure rfl

theorem Shifts.thenCheck (hr : Shifts marks groups r r') :
    Shifts marks groups r.thenCheck r'.thenCheck :=
  .withMark fun mark => hr.cat (.checkpoint mark)

theorem Shifts.optional (hr : Shifts marks groups r r') (greedy : Bool) :
    Shifts marks groups (r.optional greedy) (r'.optional greedy) := by
  cases greedy with
  | true => exact hr.alt (.pure rfl)
  | false => exact Shifts.alt (.pure rfl) hr

theorem Shifts.copies (hr : Shifts marks groups r r') (n : Nat) :
    Shifts marks groups (r.copies n) (r'.copies n) := by
  induction n with
  | zero => exact .pure rfl
  | succ n ih => exact hr.cat ih

theorem Shifts.atMost (hr : Shifts marks groups r r') (greedy : Bool) (n : Nat) :
    Shifts marks groups (r.atMost greedy n) (r'.atMost greedy n) := by
  induction n with
  | zero => exact .pure rfl
  | succ n ih => exact (hr.cat ih).optional greedy

theorem Shifts.limited (hr : Shifts marks groups r r') (greedy : Bool) (least most : Nat) :
    Shifts marks groups (r.limited greedy least most) (r'.limited greedy least most) := by
  rw [Numbered.limited, Numbered.limited]
  split_ifs
  · exact ((hr.copies least).cat (hr.atMost greedy (most - least))).thenCheck
  · exact hr.copies least

theorem Shifts.loop (hr : Shifts marks groups r r') (greedy : Bool) (least : Nat)
    (most : Option Nat) : Shifts marks groups (r.map (.loop greedy least most))
      (r'.map (.loop greedy least most)) :=
  hr.map fun _ => rfl

theorem Shifts.rounds (hr : Shifts marks groups r r') (greedy : Bool) :
    Shifts marks groups (r.rounds greedy) (r'.rounds greedy) :=
  Shifts.loop (.withMark fun mark => .cat (.checkpoint mark) hr) greedy 1 none

theorem Shifts.unlimited (honce : Shifts marks groups once once')
    (hround : Shifts marks groups round round') (greedy : Bool) (least : Nat) :
    Shifts marks groups (.unlimited greedy least once round)
      (.unlimited greedy least once' round') := by
  rw [Numbered.unlimited, Numbered.unlimited]
  split_ifs
  · exact ((hround.rounds greedy).optional greedy).thenCheck
  · exact (honce.copies (least - 1)).cat (hround.rounds greedy)

theorem Shifts.anyTimes (hr : Shifts marks groups r r') (greedy : Bool) :
    Shifts marks groups (r.anyTimes greedy) (r'.anyTimes greedy) :=
  .withMark fun mark => .cat (.checkpoint mark) ((hr.cat (.checkpoint mark)).loop greedy 0 none)

end Numbered

open Numbered

/-- Checkpoints are put in alike, whatever the number of the next one is. -/
theorem shifts_numbered (circling : Bool) (r : Regex) :
    Shifts marks groups (numbered circling r) (numbered circling (r.shift marks groups)) := by
  induction r generalizing circling with
  | cat a b iha ihb => exact (iha circling).cat (ihb circling)
  | alt a b iha ihb =>
    have halt := (iha circling).alt (ihb circling)
    simp only [shift, numbered]
    split_ifs
    · exact halt.thenCheck
    · exact halt
  | loop greedy least most r ih =>
    have hloop := (ih circling).loop greedy least most
    cases most with
    | none =>
      simp only [shift, numbered, isNonempty_shift]
      split_ifs
      · exact (ih circling).anyTimes greedy
      · exact hloop
      · exact (ih circling).unlimited (ih true) greedy least
    | some limit =>
      simp only [shift, numbered, isNonempty_shift, isPlain_shift]
      split_ifs
      · exact hloop.thenCheck
      · exact hloop
      · exact (ih circling).limited greedy least limit
      · exact .pure rfl
  | group index name r ih => exact (ih circling).map fun _ => rfl
  | checkpoint mark => exact .checkpoint mark
  | _ => exact .pure rfl

end RuledMarkup.Regex
