import Mathlib.Data.List.Forall2
import RuledMarkup.Proofs.Regex.Shifted
import RuledMarkup.Proofs.Regex.Ways

/-!
# The checkpoints that ways pass

A way passes no other checkpoints than those of the expression.  The checkpoints of an expression
behind another one have numbers that come after those of the first, so that the ways of the second
are the same wherever it is reached.

## Main definitions

* `Regex.marks` : the numbers of the checkpoints of an expression.
* `Numbered.Fresh` : the numbers of checkpoints come one after the other.
* `Way.Alike` : two ways that end at the same position.

## Main results

* `Regex.ways_guarded` : an expression is matched in the ways of the one with numbered checkpoints.
* `Regex.alike_ways` : where other checkpoints have been passed, an expression is matched in the
  same ways.
* `Regex.exists_guarded_lookahead` : an expression with its checkpoints and one behind it.
-/

namespace RuledMarkup.Regex

/-- The numbers of the checkpoints of an expression. -/
def marks : Regex → List Nat
  | cat a b => a.marks ++ b.marks
  | alt a b => a.marks ++ b.marks
  | loop _ _ _ r => r.marks
  | group _ _ r => r.marks
  | checkpoint mark => [mark]
  | _ => []

theorem marks_shift (marks groups : Nat) (r : Regex) :
    (r.shift marks groups).marks = r.marks.map (marks + ·) := by
  induction r <;> simp_all [shift, Regex.marks]

/-- Numbers that stay the same when they grow are no numbers at all. -/
theorem eq_nil_of_map_succ {numbers : List Nat} (h : numbers.map (1 + ·) = numbers) :
    numbers = [] := by
  cases numbers with
  | nil => rfl
  | cons number numbers =>
    have hnumber : 1 + number = number := (List.cons_eq_cons.1 h).1
    omega

/-- Checkpoints whose numbers do not matter are not there. -/
theorem marks_eq_nil {r : Regex} (h : r.shift 1 0 = r) : r.marks = [] :=
  eq_nil_of_map_succ (by rw [← marks_shift 1 0, h])

/-- Without checkpoints their numbers do not matter. -/
theorem shift_of_marks_eq_nil {r : Regex} (h : r.marks = []) (marks groups : Nat) :
    r.shift marks groups = r.shift 0 groups := by
  induction r with
  | cat a b iha ihb =>
    obtain ⟨ha, hb⟩ := List.append_eq_nil_iff.1 h
    rw [shift, iha ha, ihb hb, shift]
  | alt a b iha ihb =>
    obtain ⟨ha, hb⟩ := List.append_eq_nil_iff.1 h
    rw [shift, iha ha, ihb hb, shift]
  | loop greedy least most r ih => rw [shift, ih h, shift]
  | group index name r ih => rw [shift, ih h, shift]
  | checkpoint mark => cases h
  | _ => rfl

/-! ### Sequences -/

theorem seq_assoc (a b c : Regex) : seq (seq a b) c = seq a (seq b c) := by
  induction a with
  | empty => rfl
  | cat a a' _ ih => simp only [seq, ih]
  | _ => cases b <;> cases c <;> rfl

theorem marks_seq (a b : Regex) : (seq a b).marks = a.marks ++ b.marks := by
  induction a with
  | empty => rfl
  | cat a a' _ ih => simp only [seq, marks, ih, List.append_assoc]
  | _ => cases b <;> simp [seq, marks]

theorem groups_seq (a b : Regex) : (seq a b).groups = a.groups ++ b.groups := by
  induction a with
  | empty => rfl
  | cat a a' _ ih => simp only [seq, groups, ih, List.append_assoc]
  | _ => cases b <;> simp [seq, groups]

theorem isPlain_seq (a b : Regex) : (seq a b).isPlain = (a.isPlain && b.isPlain) := by
  induction a with
  | empty => rfl
  | cat a a' _ ih => simp only [seq, isPlain, ih, Bool.and_assoc]
  | _ => cases b <;> simp [seq, isPlain]

/-- A sequence is matched in the ways of its parts. -/
theorem ways_seq (bound : Nat) (a b : Regex) (way : Way) :
    (seq a b).ways bound way = (a.ways bound way).flatMap (b.ways bound) := by
  induction a generalizing way with
  | empty => simp [seq, ways]
  | cat a a' _ ih => simp only [seq, ways, List.flatMap_assoc, funext fun way => ih way]
  | _ => cases b <;> simp [seq, ways]

theorem numbered_seq (circling : Bool) (a b : Regex) :
    numbered circling (seq a b) = (numbered circling a).cat (numbered circling b) := by
  have hempty (r : Numbered) : r.cat (.pure .empty) = r := by
    funext next
    simp only [Numbered.cat, Numbered.pure, seq_empty]
  induction a with
  | empty => rfl
  | cat a a' _ ih =>
    funext next
    simp only [seq, numbered, ih, Numbered.cat, seq_assoc]
  | _ =>
    cases b with
    | empty => exact (hempty _).symm
    | _ => rfl

/-! ### Numbers of checkpoints -/

namespace Numbered

/-- If the number of the next checkpoint is not less than a given one, then all checkpoints have
numbers before the one that is next after them.  The groups are among given ones. -/
def Fresh (least : Nat) (groups : List (Nat × Option String)) (r : Numbered) : Prop :=
  ∀ next, least ≤ next → next ≤ (r next).2 ∧ (∀ mark ∈ (r next).1.marks, mark < (r next).2) ∧
    (r next).1.groups ⊆ groups

variable {least least' : Nat} {groups groups' : List (Nat × Option String)}
  {r s once round : Numbered}

theorem Fresh.mono (h : r.Fresh least groups) (hle : least ≤ least') : r.Fresh least' groups :=
  fun next hnext => h next (Nat.le_trans hle hnext)

theorem Fresh.subset (h : r.Fresh least groups) (hgroups : groups ⊆ groups') :
    r.Fresh least groups' :=
  fun next hnext => ⟨(h next hnext).1, (h next hnext).2.1,
    List.Subset.trans (h next hnext).2.2 hgroups⟩

theorem fresh_pure {r : Regex} (hmarks : r.marks = []) (hgroups : r.groups ⊆ groups) :
    (pure r).Fresh least groups :=
  fun next _ => ⟨Nat.le_refl next, by simp [pure, hmarks], hgroups⟩

theorem fresh_empty : (pure .empty).Fresh least groups := fresh_pure rfl (List.nil_subset _)

theorem fresh_checkpoint (mark : Nat) : (pure (.checkpoint mark)).Fresh (mark + 1) groups :=
  fun next hnext => ⟨Nat.le_refl next, by simpa [pure, marks] using Nat.lt_of_succ_le hnext,
    List.nil_subset _⟩

theorem Fresh.cat (hr : r.Fresh least groups) (hs : s.Fresh least groups) :
    (r.cat s).Fresh least groups := by
  intro next hnext
  obtain ⟨hle, hmarks, hgroups⟩ := hr next hnext
  obtain ⟨hle', hmarks', hgroups'⟩ := hs (r next).2 (Nat.le_trans hnext hle)
  refine ⟨Nat.le_trans hle hle', fun mark hmem => ?_, ?_⟩
  · simp only [Numbered.cat, marks_seq, List.mem_append] at hmem
    rcases hmem with hmem | hmem
    · exact Nat.lt_of_lt_of_le (hmarks mark hmem) hle'
    · exact hmarks' mark hmem
  · simp only [Numbered.cat, groups_seq]
    exact List.append_subset.2 ⟨hgroups, hgroups'⟩

theorem Fresh.alt (hr : r.Fresh least groups) (hs : s.Fresh least groups) :
    (r.alt s).Fresh least groups := by
  intro next hnext
  obtain ⟨hle, hmarks, hgroups⟩ := hr next hnext
  obtain ⟨hle', hmarks', hgroups'⟩ := hs (r next).2 (Nat.le_trans hnext hle)
  refine ⟨Nat.le_trans hle hle', fun mark hmem => ?_, List.append_subset.2 ⟨hgroups, hgroups'⟩⟩
  rcases List.mem_append.1 hmem with hmem | hmem
  · exact Nat.lt_of_lt_of_le (hmarks mark hmem) hle'
  · exact hmarks' mark hmem

theorem Fresh.loop (hr : r.Fresh least groups) (greedy : Bool) (fewest : Nat) (most : Option Nat) :
    (r.map (.loop greedy fewest most)).Fresh least groups :=
  hr

theorem Fresh.group (hr : r.Fresh least groups) (index : Nat) (name : Option String) :
    (r.map (.group index name)).Fresh least ((index, name) :: groups) :=
  fun next hnext => ⟨(hr next hnext).1, (hr next hnext).2.1,
    List.cons_subset_cons _ (hr next hnext).2.2⟩

/-- The number of a new checkpoint comes before that of the next one. -/
theorem Fresh.withMark {r : Nat → Numbered}
    (h : ∀ mark, least ≤ mark → (r mark).Fresh (mark + 1) groups) :
    (withMark r).Fresh least groups := by
  intro next hnext
  obtain ⟨hle, hfresh⟩ := h next hnext (next + 1) (Nat.le_refl _)
  exact ⟨Nat.le_of_succ_le hle, hfresh⟩

theorem Fresh.thenCheck (hr : r.Fresh least groups) : r.thenCheck.Fresh least groups :=
  .withMark fun mark hmark => (hr.mono (Nat.le_succ_of_le hmark)).cat (fresh_checkpoint mark)

theorem Fresh.optional (hr : r.Fresh least groups) (greedy : Bool) :
    (r.optional greedy).Fresh least groups := by
  cases greedy with
  | true => exact hr.alt fresh_empty
  | false => exact fresh_empty.alt hr

theorem Fresh.copies (hr : r.Fresh least groups) (n : Nat) : (r.copies n).Fresh least groups := by
  induction n with
  | zero => exact fresh_empty
  | succ n ih => exact hr.cat ih

theorem Fresh.atMost (hr : r.Fresh least groups) (greedy : Bool) (n : Nat) :
    (r.atMost greedy n).Fresh least groups := by
  induction n with
  | zero => exact fresh_empty
  | succ n ih => exact (hr.cat ih).optional greedy

theorem Fresh.limited (hr : r.Fresh least groups) (greedy : Bool) (fewest most : Nat) :
    (r.limited greedy fewest most).Fresh least groups := by
  rw [Numbered.limited]
  split_ifs
  · exact ((hr.copies fewest).cat (hr.atMost greedy (most - fewest))).thenCheck
  · exact hr.copies fewest

theorem Fresh.rounds (hr : r.Fresh least groups) (greedy : Bool) :
    (r.rounds greedy).Fresh least groups :=
  Fresh.loop (.withMark fun mark hmark =>
    (fresh_checkpoint mark).cat (hr.mono (Nat.le_succ_of_le hmark))) greedy 1 none

theorem Fresh.unlimited (honce : once.Fresh least groups) (hround : round.Fresh least groups)
    (greedy : Bool) (fewest : Nat) : (unlimited greedy fewest once round).Fresh least groups := by
  rw [Numbered.unlimited]
  split_ifs
  · exact ((hround.rounds greedy).optional greedy).thenCheck
  · exact (honce.copies (fewest - 1)).cat (hround.rounds greedy)

theorem Fresh.anyTimes (hr : r.Fresh least groups) (greedy : Bool) :
    (r.anyTimes greedy).Fresh least groups :=
  .withMark fun mark hmark => (fresh_checkpoint mark).cat
    (((hr.mono (Nat.le_succ_of_le hmark)).cat (fresh_checkpoint mark)).loop greedy 0 none)

end Numbered

open Numbered

/-- The checkpoints of an expression get the numbers one after the other. -/
theorem fresh_numbered (circling : Bool) {r : Regex} (hmarks : r.marks = []) :
    (numbered circling r).Fresh 0 r.groups := by
  induction r generalizing circling with
  | cat a b iha ihb =>
    obtain ⟨ha, hb⟩ := List.append_eq_nil_iff.1 hmarks
    exact ((iha circling ha).subset (List.subset_append_left ..)).cat
      ((ihb circling hb).subset (List.subset_append_right ..))
  | alt a b iha ihb =>
    obtain ⟨ha, hb⟩ := List.append_eq_nil_iff.1 hmarks
    have halt := ((iha circling ha).subset (List.subset_append_left a.groups b.groups)).alt
      ((ihb circling hb).subset (List.subset_append_right ..))
    simp only [numbered]
    split_ifs
    · exact halt.thenCheck
    · exact halt
  | loop greedy least most r ih =>
    have hloop := (ih circling hmarks).loop greedy least most
    cases most with
    | none =>
      simp only [numbered]
      split_ifs
      · exact (ih circling hmarks).anyTimes greedy
      · exact hloop
      · exact (ih circling hmarks).unlimited (ih true hmarks) greedy least
    | some limit =>
      simp only [numbered]
      split_ifs
      · exact hloop.thenCheck
      · exact hloop
      · exact (ih circling hmarks).limited greedy least limit
      · exact fresh_pure hmarks (List.Subset.refl _)
  | group index name r ih => exact (ih circling hmarks).group index name
  | checkpoint mark => cases hmarks
  | _ => exact fresh_pure rfl (List.Subset.refl _)

/-! ### Ways -/

section Rounds

variable {P : Way → Prop} {round : Way → List Way}
  (hround : ∀ {way way'}, P way → way' ∈ round way → P way') {way way' : Way} {n : Nat}

include hround

/-- What every round preserves is true of every way of a number of rounds. -/
theorem invariant_waysExactly (hway : P way) (h : way' ∈ waysExactly round n way) : P way' := by
  induction n generalizing way with
  | zero =>
    obtain rfl := List.mem_singleton.1 h
    exact hway
  | succ n ih =>
    obtain ⟨middle, hmiddle, h⟩ := List.mem_flatMap.1 h
    exact ih (hround hway hmiddle) h

theorem invariant_waysUpTo {greedy : Bool} (hway : P way)
    (h : way' ∈ waysUpTo greedy round n way) : P way' := by
  induction n generalizing way with
  | zero =>
    obtain rfl := List.mem_singleton.1 h
    exact hway
  | succ n ih =>
    have h : way' = way ∨ way' ∈ (round way).flatMap (waysUpTo greedy round n) := by
      rw [waysUpTo] at h
      cases greedy <;> simp_all [or_comm]
    rcases h with rfl | h
    · exact hway
    · obtain ⟨middle, hmiddle, h⟩ := List.mem_flatMap.1 h
      exact ih (hround hway hmiddle) h

end Rounds

section Ways

variable {way way' : Way} {bound : Nat} {r : Regex}

/-- A way passes no other checkpoints than those of the expression. -/
theorem passed_of_mem_ways {P : Nat → Prop} (hmarks : ∀ mark ∈ r.marks, P mark)
    (hway : ∀ mark ∈ way.1.passed, P mark) (h : way' ∈ r.ways bound way) :
    ∀ mark ∈ way'.1.passed, P mark := by
  induction r generalizing way way' with
  | empty =>
    obtain rfl := List.mem_singleton.1 h
    exact hway
  | set s =>
    simp only [ways] at h
    split at h
    · cases h
    · split_ifs at h
      · obtain rfl := List.mem_singleton.1 h
        exact fun mark hmem => by cases hmem
      · cases h
  | look l =>
    simp only [ways] at h
    split_ifs at h
    · obtain rfl := List.mem_singleton.1 h
      exact hway
    · cases h
  | cat a b iha ihb =>
    obtain ⟨hmarksa, hmarksb⟩ := List.forall_mem_append.1 hmarks
    obtain ⟨middle, hmiddle, h⟩ := List.mem_flatMap.1 h
    exact ihb hmarksb (iha hmarksa hway hmiddle) h
  | alt a b iha ihb =>
    obtain ⟨hmarksa, hmarksb⟩ := List.forall_mem_append.1 hmarks
    rcases List.mem_append.1 h with h | h
    · exact iha hmarksa hway h
    · exact ihb hmarksb hway h
  | loop greedy least most r ih =>
    obtain ⟨middle, hmiddle, h⟩ := List.mem_flatMap.1 h
    have hround {way way' : Way} (hway : ∀ mark ∈ way.1.passed, P mark)
        (h : way' ∈ r.ways bound way) : ∀ mark ∈ way'.1.passed, P mark := ih hmarks hway h
    exact invariant_waysUpTo hround (invariant_waysExactly hround hway hmiddle) h
  | group index name r ih =>
    obtain ⟨middle, hmiddle, rfl⟩ := List.mem_map.1 h
    show ∀ mark ∈ middle.1.passed, P mark
    exact ih hmarks hway hmiddle
  | checkpoint mark =>
    simp only [ways] at h
    split_ifs at h
    · cases h
    · obtain rfl := List.mem_singleton.1 h
      exact List.forall_mem_cons.2 ⟨hmarks mark (List.mem_singleton_self mark), hway⟩

/-- If every round of every repetition without limit uses up a character, then no checkpoints are
put in. -/
theorem ways_numbered_of_isPlain (hplain : r.isPlain = true) (next : Nat) :
    (numbered false r next).1.ways bound = r.ways bound ∧ (numbered false r next).2 = next := by
  induction r generalizing next with
  | cat a b iha ihb =>
    obtain ⟨ha, hb⟩ := Bool.and_eq_true_iff.1 hplain
    obtain ⟨hways, hnext⟩ := iha ha next
    obtain ⟨hways', hnext'⟩ := ihb hb next
    simp only [numbered, Numbered.cat, hnext]
    refine ⟨?_, hnext'⟩
    funext way
    rw [ways_seq, hways, hways', ways]
  | alt a b iha ihb =>
    obtain ⟨ha, hb⟩ := Bool.and_eq_true_iff.1 hplain
    obtain ⟨hways, hnext⟩ := iha ha next
    obtain ⟨hways', hnext'⟩ := ihb hb next
    simp only [numbered, Numbered.alt, Bool.false_eq_true, if_false, hnext]
    refine ⟨?_, hnext'⟩
    funext way
    rw [ways, hways, hways', ways]
  | loop greedy least most r ih =>
    obtain ⟨hlimit, hr⟩ := Bool.and_eq_true_iff.1 hplain
    obtain ⟨hways, hnext⟩ := ih hr next
    have hloop : ((numbered false r).map (.loop greedy least most) next).1.ways bound =
        (loop greedy least most r).ways bound := by
      funext way
      simp only [Numbered.map, ways, hways]
    cases most with
    | none =>
      have hnonempty : r.isNonempty = true := by simpa using hlimit
      simp only [numbered, hnonempty, Bool.false_and, Bool.false_eq_true, if_true, if_false]
      exact ⟨hloop, hnext⟩
    | some limit =>
      simp only [numbered, hr, Bool.false_and, Bool.not_true, Bool.or_self, Bool.false_eq_true,
        if_false]
      split_ifs
      · exact ⟨hloop, hnext⟩
      · exact ⟨rfl, rfl⟩
  | group index name r ih =>
    obtain ⟨hways, hnext⟩ := ih hplain next
    refine ⟨?_, hnext⟩
    funext way
    simp only [numbered, Numbered.map, ways, hways]
  | checkpoint mark => cases hplain
  | _ => exact ⟨rfl, rfl⟩

/-- An expression is matched in the ways of the one with numbered checkpoints. -/
theorem ways_guarded (r : Regex) (bound : Nat) :
    r.guarded.ways bound = (numbered false r 0).1.ways bound := by
  rw [guarded]
  split_ifs with hplain
  · exact (ways_numbered_of_isPlain hplain 0).1.symm
  · rfl

/-- Two ways end at the same position, and the checkpoints passed there are the same, but those of
the second one have greater numbers. -/
structure Way.Alike (marks : Nat) (way way' : Way) : Prop where
  before_eq : way'.1.before = way.1.before
  rest_eq : way'.1.rest = way.1.rest
  offset_eq : way'.1.offset = way.1.offset
  passed_iff : ∀ mark, marks + mark ∈ way'.1.passed ↔ mark ∈ way.1.passed

end Ways

section Alike

variable {marks bound : Nat} {way way' : Way}

theorem Way.Alike.holds_eq (h : way.Alike marks way') (l : Look) :
    l.holds way'.1 = l.holds way.1 := by
  cases l <;> simp [Look.holds, Cursor.afterWord, Cursor.beforeWord, h.before_eq, h.rest_eq]

theorem alike_waysExactly {round round' : Way → List Way}
    (hround : ∀ {way way' : Way}, way.Alike marks way' →
      List.Forall₂ (Way.Alike marks) (round way) (round' way'))
    (h : way.Alike marks way') (n : Nat) :
    List.Forall₂ (Way.Alike marks) (waysExactly round n way) (waysExactly round' n way') := by
  induction n generalizing way way' with
  | zero => exact .cons h .nil
  | succ n ih => exact List.rel_flatMap (hround h) fun _ _ h => ih h

theorem alike_waysUpTo {round round' : Way → List Way}
    (hround : ∀ {way way' : Way}, way.Alike marks way' →
      List.Forall₂ (Way.Alike marks) (round way) (round' way'))
    (h : way.Alike marks way') (greedy : Bool) (n : Nat) :
    List.Forall₂ (Way.Alike marks) (waysUpTo greedy round n way)
      (waysUpTo greedy round' n way') := by
  induction n generalizing way way' with
  | zero => exact .cons h .nil
  | succ n ih =>
    have hfurther := List.rel_flatMap (hround h) fun _ _ h => ih h
    cases greedy with
    | true => exact List.rel_append hfurther (.cons h .nil)
    | false => exact .cons h hfurther

/-- With greater numbers of checkpoints and groups an expression is matched in the same ways. -/
theorem alike_ways (groups : Nat) (r : Regex) (h : way.Alike marks way') :
    List.Forall₂ (Way.Alike marks) (r.ways bound way) ((r.shift marks groups).ways bound way') := by
  induction r generalizing way way' with
  | empty => exact .cons h .nil
  | set s =>
    simp only [shift, ways, h.rest_eq]
    split
    · exact .nil
    · split_ifs
      · exact .cons ⟨rfl, rfl, by simp [Cursor.next, h.offset_eq], by simp [Cursor.next]⟩ .nil
      · exact .nil
  | look l =>
    simp only [shift, ways, h.holds_eq]
    split_ifs
    · exact .cons h .nil
    · exact .nil
  | cat a b iha ihb => exact List.rel_flatMap (iha h) fun _ _ h => ihb h
  | alt a b iha ihb => exact List.rel_append (iha h) (ihb h)
  | loop greedy least most r ih =>
    exact List.rel_flatMap (alike_waysExactly ih h least) fun _ _ h => alike_waysUpTo ih h greedy _
  | group index name r ih =>
    refine List.rel_map ?_ (ih h)
    exact fun _ _ h => ⟨h.before_eq, h.rest_eq, h.offset_eq, h.passed_iff⟩
  | checkpoint mark =>
    simp only [shift, ways, h.passed_iff]
    split_ifs
    · exact .nil
    · refine .cons ⟨h.before_eq, h.rest_eq, h.offset_eq, fun mark' => ?_⟩ .nil
      simp [Cursor.pass, h.passed_iff]

end Alike

/-! ### Expressions behind a start condition -/

/-- With its checkpoints an expression behind a start condition is matched in the ways in which it
is matched alone. -/
theorem exists_guarded_start (own : Regex) :
    ∃ r : Regex, (seq (.look .start) own).guarded = seq (.look .start) r ∧
      ∀ bound, r.ways bound = own.guarded.ways bound := by
  by_cases hplain : (seq (.look .start) own).isPlain = true
  · refine ⟨own, guarded_of_isPlain hplain, fun bound => ?_⟩
    rw [isPlain_seq, Bool.and_eq_true] at hplain
    rw [guarded_of_isPlain hplain.2]
  · refine ⟨(numbered false own 0).1, ?_, fun bound => (ways_guarded own bound).symm⟩
    rw [guarded, if_neg hplain, numbered_seq]
    rfl

/-- With their checkpoints an expression and one in a group behind it are matched in the ways in
which they are matched alone.  The checkpoints of the second one have greater numbers than those of
the first. -/
theorem exists_guarded_lookahead {own look : Regex} (hown : own.marks = [])
    (hlook : look.marks = []) (index : Nat) (name : Option String) (groups : Nat) :
    ∃ (a b : Regex) (marks : Nat),
      (seq (.look .start) (seq own (.group index name (look.shift 0 groups)))).guarded =
        seq (.look .start) (seq a (.group index name (b.shift marks groups))) ∧
      (∀ bound, a.ways bound = own.guarded.ways bound) ∧
      (∀ bound, b.ways bound = look.guarded.ways bound) ∧
      (∀ mark ∈ a.marks, mark < marks) ∧ a.groups ⊆ own.groups := by
  have hseq (marks : Nat) : seq (.look .start) (seq own (.group index name (look.shift 0 groups))) =
      seq (.look .start) (seq own (.group index name (look.shift marks groups))) := by
    rw [shift_of_marks_eq_nil hlook marks]
  generalize hwhole :
    seq (.look .start) (seq own (.group index name (look.shift 0 groups))) = whole at hseq ⊢
  by_cases hplain : whole.isPlain = true
  · refine ⟨own, look, 0, (guarded_of_isPlain hplain).trans hwhole.symm, ?_, ?_, ?_,
      List.Subset.refl _⟩
    all_goals simp only [← hwhole, isPlain_seq, isPlain, isPlain_shift, Bool.and_eq_true] at hplain
    · exact fun bound => by rw [guarded_of_isPlain hplain.2.1]
    · exact fun bound => by rw [guarded_of_isPlain hplain.2.2]
    · simp [hown]
  · obtain ⟨-, hmarks, hgroups⟩ := fresh_numbered false hown 0 (Nat.zero_le 0)
    refine ⟨(numbered false own 0).1, (numbered false look 0).1, (numbered false own 0).2, ?_,
      fun bound => (ways_guarded own bound).symm, fun bound => (ways_guarded look bound).symm,
      hmarks, hgroups⟩
    generalize hnext : (numbered false own 0).2 = next
    have hnumbered : numbered false (look.shift next groups) next =
        ((numbered false look 0).1.shift next groups, next + (numbered false look 0).2) :=
      shifts_numbered next groups false look 0
    rw [guarded, if_neg hplain, hseq next]
    simp only [numbered_seq, Numbered.cat, numbered, Numbered.pure, Numbered.map, hnext, hnumbered]

end RuledMarkup.Regex
