import Mathlib.Algebra.Group.Nat.Defs
import Mathlib.Data.List.Chain
import RuledMarkup.Regex.CharSet

/-!
# Digits, white space and word characters

A table of ranges in order covers every code point of its ranges.  So it is enough to compare the
tables, range by range, to see that every digit is a word character, and that no white space is one.

## Main definitions

* `Text.CodePoints.Precedes` : a range comes before another one.
* `CharSet.isOutsideWords` : a set has no word character.

## Main results

* `Text.CodePoints.covers_of_mem` : the search finds every code point of the ranges.
* `Text.isWord_of_isDigit`, `Text.isWord_eq_false_of_isSpace` : how the classes lie to each other.
-/

namespace RuledMarkup

namespace Text

/-! ### Tables of ranges -/

namespace CodePoints

/-- The first range is a range, and it ends before the second one begins. -/
def Precedes (a b : Nat × Nat) : Prop := a.1 ≤ a.2 ∧ a.2 < b.1

instance (a b : Nat × Nat) : Decidable (Precedes a b) := inferInstanceAs (Decidable (_ ∧ _))

instance : Trans Precedes Precedes Precedes where
  trans h h' := ⟨h.1, Nat.lt_trans h.2 (Nat.lt_of_le_of_lt h'.1 h'.2)⟩

variable {table : Array (Nat × Nat)} {n : Nat}

theorem precedes_of_lt (htable : table.toList.IsChain Precedes) {i j : Nat} {a b : Nat × Nat}
    (ha : table[i]? = some a) (hb : table[j]? = some b) (hij : i < j) : Precedes a b := by
  obtain ⟨hi, rfl⟩ := Array.getElem?_eq_some_iff.1 ha
  obtain ⟨hj, rfl⟩ := Array.getElem?_eq_some_iff.1 hb
  exact List.pairwise_iff_getElem.1 (List.isChain_iff_pairwise.1 htable) i j hi hj hij

/-- Halving never leaves out the range of a code point. -/
theorem search_of_getElem? (htable : table.toList.IsChain Precedes) {i : Nat} {r : Nat × Nat}
    (hr : table[i]? = some r) (hfirst : r.1 ≤ n) (hfinal : n ≤ r.2) {depth lo hi : Nat}
    (hlo : lo ≤ i) (hhi : i < hi) (hsize : hi ≤ table.size) (hdepth : hi - lo < 2 ^ depth) :
    search table n depth lo hi = true := by
  induction depth generalizing lo hi with
  | zero => omega
  | succ depth ih =>
    rw [Nat.pow_succ] at hdepth
    obtain ⟨m, hm⟩ : ∃ m, table[(lo + hi) / 2]? = some m :=
      ⟨_, Array.getElem?_eq_getElem (by omega)⟩
    rw [search, if_pos (Nat.lt_of_le_of_lt hlo hhi)]
    simp only [hm]
    rcases Nat.lt_trichotomy i ((lo + hi) / 2) with hlt | rfl | hlt
    · have hprecedes := precedes_of_lt htable hr hm hlt
      rw [if_pos (Nat.lt_of_le_of_lt hfinal hprecedes.2)]
      exact ih hlo hlt (by omega) (by omega)
    · obtain rfl := Option.some.inj (hr.symm.trans hm)
      rw [if_neg (Nat.not_lt.2 hfirst), if_neg (Nat.not_lt.2 hfinal)]
    · have hprecedes := precedes_of_lt htable hm hr hlt
      have hbehind : m.2 < n := Nat.lt_of_lt_of_le hprecedes.2 hfirst
      rw [if_neg (Nat.not_lt.2 (hprecedes.1.trans hbehind.le)), if_pos hbehind]
      exact ih hlt hhi hsize (by omega)

/-- A table whose ranges are in order covers their code points. -/
theorem covers_of_mem (htable : table.toList.IsChain Precedes) {r : Nat × Nat} (hr : r ∈ table)
    (hfirst : r.1 ≤ n) (hfinal : n ≤ r.2) : covers table n = true := by
  obtain ⟨i, hi, rfl⟩ := Array.getElem_of_mem hr
  refine search_of_getElem? htable (Array.getElem?_eq_getElem hi) hfirst hfinal (Nat.zero_le i) hi
    (Nat.le_refl _) ?_
  rw [Nat.sub_zero]
  exact Nat.lt_trans Nat.lt_log2_self (Nat.pow_lt_pow_right (by decide) (Nat.lt_succ_self _))

end CodePoints

/-! ### The tables of the classes -/

/-- The code points of white space. -/
def spaces : List Nat :=
  List.range' 9 5 ++ [0x20, 0x85, 0xa0, 0x1680] ++ List.range' 0x2000 11
    ++ [0x2028, 0x2029, 0x202f, 0x205f, 0x3000]

/-- What the tables of the classes show. -/
structure WordTables : Prop where
  wordTable_isChain : wordTable.toList.IsChain CodePoints.Precedes
  digitTable_within : (digitTable.toList.all fun r =>
    wordTable.toList.any fun w => w.1.ble r.1 && r.2.ble w.2) = true
  digitTable_above : ∀ r ∈ digitTable.toList, 'À'.toNat ≤ r.1
  spaces_outside : ∀ n ∈ spaces, isWord (.ofNat n) = false

theorem wordTables : WordTables := by constructor <;> decide +kernel

variable {c : Char}

/-- A decimal digit is a word character. -/
theorem isWord_of_isDigit (h : isDigit c = true) : isWord c = true := by
  rw [isDigit] at h
  split_ifs at h with hascii
  · exact isWord_of_isAlphanum (by simp [Char.isAlphanum, h]) hascii
  · obtain ⟨r, hr, hfirst, hfinal⟩ := CodePoints.exists_of_covers h
    obtain ⟨w, hw, hwithin⟩ := List.any_eq_true.1
      (List.all_eq_true.1 wordTables.digitTable_within r (Array.mem_toList_iff.2 hr))
    simp only [Bool.and_eq_true, Nat.ble_eq] at hwithin
    rw [isWord, if_neg hascii]
    exact CodePoints.covers_of_mem wordTables.wordTable_isChain (Array.mem_toList_iff.1 hw)
      (hwithin.1.trans hfirst) (hfinal.trans hwithin.2)

/-- A decimal digit that is not in ASCII is not before the accented letters. -/
theorem le_of_isDigit (h : isDigit c = true) : c.isDigit = true ∨ 'À'.toNat ≤ c.toNat := by
  rw [isDigit] at h
  split_ifs at h
  · exact .inl h
  · obtain ⟨r, hr, hfirst, -⟩ := CodePoints.exists_of_covers h
    exact .inr ((wordTables.digitTable_above r (Array.mem_toList_iff.2 hr)).trans hfirst)

/-- White space is not a word character. -/
theorem isWord_eq_false_of_isSpace (h : isSpace c = true) : isWord c = false := by
  have hmem : c.toNat ∈ spaces := by
    simp only [isSpace, Bool.or_eq_true, Bool.and_eq_true, decide_eq_true_eq, beq_iff_eq] at h
    simp only [spaces, List.mem_append, List.mem_range'_1, List.mem_cons, List.not_mem_nil,
      or_false]
    omega
  simpa using wordTables.spaces_outside c.toNat hmem

end Text

/-! ### Sets of characters -/

/-- Is it plain that no character of the set is a word character? -/
def CharSet.isOutsideWords : CharSet → Bool
  | one c => !Text.isWord c
  | space | compl word => true
  | union a b => a.isOutsideWords && b.isOutsideWords
  | _ => false

theorem CharSet.isWord_eq_false {s : CharSet} (hs : s.isOutsideWords = true) {c : Char}
    (hc : s.mem c = true) : Text.isWord c = false := by
  induction s with
  | one d =>
    obtain rfl : c = d := eq_of_beq hc
    exact (Bool.not_eq_true' _).mp hs
  | space => exact Text.isWord_eq_false_of_isSpace hc
  | union a b iha ihb =>
    obtain ⟨ha, hb⟩ := Bool.and_eq_true_iff.1 hs
    exact (Bool.or_eq_true_iff.1 hc).elim (iha ha) (ihb hb)
  | compl a =>
    cases a with
    | word => simpa [mem] using hc
    | _ => cases hs
  | any | range | word | digit => cases hs

end RuledMarkup
