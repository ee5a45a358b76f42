import Mathlib.Order.Basic
import RuledMarkup.Proofs.Regex.Readings

/-!
# Readings of expressions with checkpoints

Checkpoints take ways away and add none, and repetitions that are written out for their sake have
no more rounds than before.  So whatever an expression with its checkpoints reads is read by the
expression without them.

## Main definitions

* `Reading.repeated` : a number of readings between two limits.
* `Numbered.Within` : an expression with numbered checkpoints reads nothing but what is allowed.

## Main results

* `Regex.reads_seq` : a sequence in its simplest form reads what its two parts read.
* `Regex.reads_guarded_le` : checkpoints add no readings.
-/

namespace RuledMarkup.Regex

/-! ### Sequences and repetitions -/

/-- A number of readings, at least `least` and, if there is a limit, no more than that. -/
def Reading.repeated (least : Nat) (most : Option Nat) (reading : Reading) : Reading :=
  fun pre word post bindings => ∃ n, least ≤ n ∧ (∀ limit ∈ most, n ≤ max least limit) ∧
    reading.times n pre word post bindings

variable {a a' b b' reading : Reading}

theorem Reading.followed_le (ha : a ≤ a') (hb : b ≤ b') : a.followed b ≤ a'.followed b' := by
  rintro pre _ post _ ⟨u, v, bu, bv, rfl, rfl, hu, hv⟩
  exact ⟨u, v, bu, bv, rfl, rfl, ha _ _ _ _ hu, hb _ _ _ _ hv⟩

theorem Reading.times_le (h : a ≤ b) (n : Nat) : a.times n ≤ b.times n := by
  induction n with
  | zero => exact le_rfl
  | succ n ih => exact followed_le h ih

theorem Reading.repeated_le (h : a ≤ b) (least : Nat) (most : Option Nat) :
    a.repeated least most ≤ b.repeated least most :=
  fun _ _ _ _ ⟨n, hleast, hmost, hn⟩ => ⟨n, hleast, hmost, times_le h n _ _ _ _ hn⟩

/-- Rounds that must be there and further rounds without limit. -/
theorem Reading.times_followed_repeated (least more : Nat) :
    (reading.times least).followed (reading.repeated more none) ≤
      reading.repeated (least + more) none := by
  rintro pre _ post _ ⟨u, v, bu, bv, rfl, rfl, hu, n, hn, -, hv⟩
  refine ⟨least + n, by omega, nofun, ?_⟩
  rw [times_add]
  exact ⟨u, v, bu, bv, rfl, rfl, hu, hv⟩

/-- Rounds that must be there and further rounds up to a limit. -/
theorem Reading.times_followed_repeated_some (least more : Nat) :
    (reading.times least).followed (reading.repeated 0 (some more)) ≤
      reading.repeated least (some (least + more)) := by
  rintro pre _ post _ ⟨u, v, bu, bv, rfl, rfl, hu, n, -, hn, hv⟩
  have := hn more rfl
  refine ⟨least + n, by omega, ?_, ?_⟩
  · rintro _ ⟨⟩
    omega
  · rw [times_add]
    exact ⟨u, v, bu, bv, rfl, rfl, hu, hv⟩

/-- A sequence in its simplest form reads what its two parts read one after the other. -/
theorem reads_seq (r s : Regex) : (seq r s).Reads = r.Reads.followed s.Reads := by
  induction r with
  | empty => exact (Reading.nothing_followed _).symm
  | cat a b _ ih =>
    have hcat : (cat a b).Reads = a.Reads.followed b.Reads := rfl
    rw [seq, hcat, Reading.followed_assoc, ← ih]
    rfl
  | _ =>
    by_cases hs : s = empty
    · subst hs
      exact (Reading.followed_nothing _).symm
    · cases s with
      | empty => exact absurd rfl hs
      | _ => rfl

/-! ### Expressions with numbered checkpoints -/

namespace Numbered

/-- Whatever numbers the checkpoints get, nothing is read but what a reading allows. -/
def Within (r : Numbered) (reading : Reading) : Prop := ∀ next, (r next).1.Reads ≤ reading

variable {r s once round : Numbered}

theorem Within.mono (h : r.Within a) (hab : a ≤ b) : r.Within b := fun next => (h next).trans hab

theorem within_pure (r : Regex) : (pure r).Within r.Reads := fun _ => le_rfl

theorem within_cat (hr : r.Within a) (hs : s.Within b) : (r.cat s).Within (a.followed b) := by
  intro next
  rw [cat, reads_seq]
  exact Reading.followed_le (hr _) (hs _)

theorem within_alt (hr : r.Within reading) (hs : s.Within reading) :
    (r.alt s).Within reading := by
  rintro next pre word post bindings (h | h)
  · exact hr _ _ _ _ _ h
  · exact hs _ _ _ _ _ h

theorem within_map {f : Regex → Regex} (hr : r.Within a)
    (hf : ∀ r : Regex, r.Reads ≤ a → (f r).Reads ≤ b) : (r.map f).Within b :=
  fun next => hf _ (hr next)

theorem within_loop (greedy : Bool) (least : Nat) (most : Option Nat) (hr : r.Within reading) :
    (r.map (.loop greedy least most)).Within (reading.repeated least most) :=
  within_map hr fun _ h => Reading.repeated_le h least most

theorem within_thenCheck (hr : r.Within reading) : r.thenCheck.Within reading := by
  intro next
  have hcat := within_cat hr (within_pure (.checkpoint next)) (next + 1)
  exact hcat.trans (Reading.followed_nothing reading).le

theorem within_optional (greedy : Bool) (hr : r.Within reading) (hnothing : .nothing ≤ reading) :
    (r.optional greedy).Within reading := by
  have hempty : (pure .empty).Within reading := (within_pure .empty).mono hnothing
  cases greedy with
  | true => exact within_alt hr hempty
  | false => exact within_alt hempty hr

theorem within_copies (hr : r.Within reading) (n : Nat) :
    (r.copies n).Within (reading.times n) := by
  induction n with
  | zero => exact within_pure .empty
  | succ n ih => exact within_cat hr ih

theorem nothing_le_repeated (most : Option Nat) : .nothing ≤ reading.repeated 0 most :=
  fun _ _ _ _ h => ⟨0, Nat.le_refl 0, fun _ _ => Nat.zero_le _, h⟩

theorem within_atMost (greedy : Bool) (hr : r.Within reading) (n : Nat) :
    (r.atMost greedy n).Within (reading.repeated 0 (some n)) := by
  induction n with
  | zero => exact (within_pure .empty).mono (nothing_le_repeated _)
  | succ n ih =>
    refine within_optional greedy ((within_cat hr ih).mono ?_) (nothing_le_repeated _)
    rintro pre _ post _ ⟨u, v, bu, bv, rfl, rfl, hu, k, -, hk, hv⟩
    have := hk n rfl
    refine ⟨k + 1, Nat.zero_le _, ?_, u, v, bu, bv, rfl, rfl, hu, hv⟩
    rintro _ ⟨⟩
    omega

theorem within_limited (greedy : Bool) (least most : Nat) (hr : r.Within reading) :
    (r.limited greedy least most).Within (reading.repeated least (some most)) := by
  rw [limited]
  split_ifs with h
  · have hcat := (within_cat (within_copies hr least) (within_atMost greedy hr (most - least))).mono
      (Reading.times_followed_repeated_some _ _)
    rw [Nat.add_sub_cancel' (Nat.le_of_lt h)] at hcat
    exact within_thenCheck hcat
  · refine (within_copies hr least).mono fun _ _ _ _ hreads => ⟨least, Nat.le_refl _, ?_, hreads⟩
    exact fun _ _ => Nat.le_max_left ..

theorem within_rounds (greedy : Bool) (hr : r.Within reading) :
    (r.rounds greedy).Within (reading.repeated 1 none) := by
  refine within_loop greedy 1 none fun next => ?_
  have hcat := within_cat (within_pure (.checkpoint next)) hr (next + 1)
  exact hcat.trans (Reading.nothing_followed reading).le

theorem within_unlimited (greedy : Bool) (least : Nat) (honce : once.Within reading)
    (hround : round.Within reading) :
    (unlimited greedy least once round).Within (reading.repeated least none) := by
  have hrounds := within_rounds greedy hround
  rw [unlimited]
  split_ifs with h
  · subst h
    refine within_thenCheck (within_optional greedy (hrounds.mono ?_) (nothing_le_repeated _))
    exact fun _ _ _ _ ⟨n, _, _, hn⟩ => ⟨n, Nat.zero_le _, nofun, hn⟩
  · have hcat := (within_cat (within_copies honce (least - 1)) hrounds).mono
      (Reading.times_followed_repeated _ _)
    rwa [Nat.sub_add_cancel (by omega)] at hcat

theorem within_anyTimes (greedy : Bool) (hr : r.Within reading) :
    (r.anyTimes greedy).Within (reading.repeated 0 none) := by
  intro next
  have hcheck : (r.cat (pure (.checkpoint next))).Within reading :=
    (within_cat hr (within_pure _)).mono (Reading.followed_nothing reading).le
  have hcat := within_cat (within_pure (.checkpoint next)) (within_loop greedy 0 none hcheck)
  exact (hcat (next + 1)).trans (Reading.nothing_followed _).le

end Numbered

open Numbered

/-- Whether or not it is in a repetition of what may be empty, an expression with its checkpoints
reads nothing new. -/
theorem within_numbered (circling : Bool) (r : Regex) : (numbered circling r).Within r.Reads := by
  induction r generalizing circling with
  | cat a b iha ihb => exact within_cat (iha circling) (ihb circling)
  | alt a b iha ihb =>
    have halt : ((numbered circling a).alt (numbered circling b)).Within (alt a b).Reads :=
      within_alt ((iha circling).mono fun _ _ _ _ => .inl) ((ihb circling).mono fun _ _ _ _ => .inr)
    rw [numbered]
    split_ifs
    · exact within_thenCheck halt
    · exact halt
  | loop greedy least most r ih =>
    have hloop := within_loop greedy least most (ih circling)
    cases most with
    | none =>
      simp only [numbered]
      split_ifs with hnonempty hleast
      · obtain ⟨-, rfl⟩ : _ ∧ least = 0 := by simpa using hleast
        exact within_anyTimes greedy (ih circling)
      · exact hloop
      · exact within_unlimited greedy least (ih circling) (ih true)
    | some limit =>
      simp only [numbered]
      split_ifs
      · exact within_thenCheck hloop
      · exact hloop
      · exact within_limited greedy least limit (ih circling)
      · exact within_pure _
  | group index name r ih =>
    exact within_map (ih circling) fun _ h _ _ _ _ ⟨inner, hinner, hreads⟩ =>
      ⟨inner, hinner, h _ _ _ _ hreads⟩
  | _ => exact within_pure _

/-- Checkpoints add no readings. -/
theorem reads_guarded_le (r : Regex) : r.guarded.Reads ≤ r.Reads := by
  rw [guarded]
  split_ifs
  · exact le_rfl
  · exact within_numbered false r 0

end RuledMarkup.Regex
