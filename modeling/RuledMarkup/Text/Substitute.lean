/-!
# Replacing a word in a text

## Main definitions

* `substitute` : replaces every occurrence of a word, from the left.
-/

namespace RuledMarkup.Text

/-- Drops `skip` characters, and then replaces every occurrence of `old` by `new`. -/
def substituteFrom (old new : List Char) : Nat → List Char → List Char
  | _, [] => []
  | skip + 1, _ :: cs => substituteFrom old new skip cs
  | 0, c :: cs =>
    if old ≠ [] ∧ old.isPrefixOf (c :: cs) then new ++ substituteFrom old new (old.length - 1) cs
    else c :: substituteFrom old new 0 cs

/-- Replaces every occurrence of `old`, found from the left and without overlap, by `new`.  An empty
word occurs nowhere. -/
def substitute (old new cs : List Char) : List Char := substituteFrom old new 0 cs

@[simp] theorem substitute_nil (old new : List Char) : substitute old new [] = [] := by
  rw [substitute, substituteFrom]

/-- A text without the first character of a word is left as it is. -/
theorem substitute_of_not_mem {old new cs : List Char} {first : Char} (h : old.head? = some first)
    (hcs : first ∉ cs) : substitute old new cs = cs := by
  induction cs with
  | nil => exact substitute_nil old new
  | cons c cs ih =>
    have hc : first ≠ c := fun heq => hcs (heq ▸ List.mem_cons_self)
    obtain ⟨rest, rfl⟩ : ∃ rest, old = first :: rest := by
      cases old with
      | nil => simp at h
      | cons o rest => simp at h; exact ⟨rest, by rw [h]⟩
    have ih := ih fun hmem => hcs (List.mem_cons_of_mem c hmem)
    rw [substitute] at ih ⊢
    rw [substituteFrom, if_neg (by simp [hc]), ih]

end RuledMarkup.Text
