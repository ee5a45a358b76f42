/-!
# Sets of code points as ranges

A property of characters is stored as a sorted table of ranges of code points, both ends
included, and a character is looked up by halving.

## Main definitions

* `CodePoints.covers` : is a code point in one of the ranges of a table.
-/

namespace RuledMarkup.Text.CodePoints

/-- Looks `n` up in the ranges with indices from `lo` up to, but not including, `hi`, halving that
stretch at most `depth` times. -/
def search (table : Array (Nat × Nat)) (n : Nat) : Nat → Nat → Nat → Bool
  | 0, _, _ => false
  | depth + 1, lo, hi =>
    if lo < hi then
      let mid := (lo + hi) / 2
      match table[mid]? with
      | none => false
      | some (first, final) =>
        if n < first then search table n depth lo mid
        else if final < n then search table n depth (mid + 1) hi
        else true
    else false

/-- Is `n` in one of the ranges of a table sorted by code point? -/
def covers (table : Array (Nat × Nat)) (n : Nat) : Bool :=
  search table n (table.size.log2 + 2) 0 table.size

/-- A code point that is found lies in a range of the table. -/
theorem exists_of_search {table : Array (Nat × Nat)} {n depth lo hi : Nat}
    (h : search table n depth lo hi = true) :
    ∃ r ∈ table, r.1 ≤ n ∧ n ≤ r.2 := by
  induction depth generalizing lo hi with
  | zero => simp [search] at h
  | succ depth ih =>
    rw [search] at h
    split at h
    · dsimp only at h
      split at h
      · simp at h
      · rename_i first final hr
        split at h
        · exact ih h
        · split at h
          · exact ih h
          · exact ⟨(first, final), Array.mem_of_getElem? hr, by simp; omega⟩
    · simp at h

/-- Only code points in one of the ranges are covered. -/
theorem exists_of_covers {table : Array (Nat × Nat)} {n : Nat} (h : covers table n = true) :
    ∃ r ∈ table, r.1 ≤ n ∧ n ≤ r.2 :=
  exists_of_search h

end RuledMarkup.Text.CodePoints
