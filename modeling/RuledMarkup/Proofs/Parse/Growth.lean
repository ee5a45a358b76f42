import Mathlib.Logic.Function.Basic
import Mathlib.Tactic.Common
import RuledMarkup.Parse.Arena

/-!
# Forests in the arena

A stretch of attachments that were made one after the other may amount to a forest under one node:
the nodes of the forest are attached to it, each of them followed by what is attached below it.
When the arena is finished, such a stretch leaves exactly its forest at that node and nothing at the
nodes before it.

## Main definitions

* `Arena.Grown` : a stretch of attachments amounts to a forest under a node.
* `Arena.completed` : completion with a function in the place of slots.

## Main results

* `Arena.completed_eq` : what completion leaves at each node.
* `Arena.completed_of_grown` : what is left of a stretch when it has been completed.
-/

namespace RuledMarkup.Arena

variable {R T : Type}

/-- The attachments, in the order in which they were made and with numbers from `first` on, amount
to a forest under the node `parent`. -/
inductive Grown : Nat → Nat → List (Attachment R T) → List (Node R T) → Prop
  | nil (first parent : Nat) : Grown first parent [] []
  | node {first parent : Nat} {root : Node R T} {inner later : List (Attachment R T)}
      {below forest : List (Node R T)} (hinner : Grown (first + 1) first inner below)
      (hlater : Grown (first + 1 + inner.length) parent later forest) :
      Grown first parent (⟨first, parent, root⟩ :: inner ++ later)
        (root.addChildren below :: forest)

/-- Completes nodes from the last to the first, where `below` holds the completed nodes attached to
each number. -/
def completed (below : Nat → List (Node R T)) : List (Attachment R T) → Nat → List (Node R T)
  | [] => below
  | entry :: older =>
    completed (Function.update below entry.parent
      (entry.node.addChildren (below entry.id) :: below entry.parent)) older

theorem completed_append (below : Nat → List (Node R T)) (a b : List (Attachment R T)) :
    completed below (a ++ b) = completed (completed below a) b := by
  induction a generalizing below with
  | nil => rfl
  | cons entry a ih => exact ih _

/-- At each node, completion leaves the nodes attached there, in order and completed. -/
theorem completed_eq (below : Nat → List (Node R T)) {attached : List (Attachment R T)}
    (hparent : ∀ entry ∈ attached, entry.parent < entry.id)
    (hids : attached.Pairwise fun later earlier => earlier.id < later.id) (i : Nat) :
    completed below attached i =
      (attached.reverse.filter (·.parent = i)).map
        (fun entry => entry.node.addChildren (completed below attached entry.id)) ++ below i := by
  induction attached generalizing below i with
  | nil => simp [completed]
  | cons entry older ih =>
    obtain ⟨hentry, hparent⟩ := List.forall_mem_cons.1 hparent
    obtain ⟨hearlier, hids⟩ := List.pairwise_cons.1 hids
    rw [completed]
    -- Nothing is attached any more to the entry whose turn it is.
    have hnone : older.reverse.filter (·.parent = entry.id) = [] := by
      rw [List.filter_eq_nil_iff]
      intro earlier hmem
      have hmem' := List.mem_reverse.1 hmem
      have := hparent earlier hmem'
      have := hearlier earlier hmem'
      simp only [decide_eq_true_eq]
      omega
    have hentry' : completed (Function.update below entry.parent
        (entry.node.addChildren (below entry.id) :: below entry.parent)) older entry.id =
          below entry.id := by
      rw [ih _ hparent hids, hnone, Function.update_of_ne (by omega)]
      rfl
    rw [ih _ hparent hids, List.reverse_cons, List.filter_append, List.map_append,
      List.append_assoc]
    congr 1
    by_cases hi : entry.parent = i
    · subst hi
      simp [hentry']
    · rw [Function.update_of_ne (Ne.symm hi)]
      simp [hi]

/-- A stretch whose numbers are free leaves its forest at its parent, and nothing at the other
nodes before it. -/
theorem completed_of_grown {first parent : Nat} {made : List (Attachment R T)}
    {forest : List (Node R T)} (h : Grown first parent made forest) (hparent : parent < first)
    {below : Nat → List (Node R T)}
    (hfree : ∀ i, first ≤ i → i < first + made.length → below i = []) {i : Nat} (hi : i < first) :
    completed below made.reverse i = if i = parent then forest ++ below i else below i := by
  induction h generalizing below i with
  | nil => simp [completed]
  | @node first parent root inner later children forest hinner hlater ihinner ihlater =>
    simp only [List.cons_append, List.length_cons, List.length_append] at hfree
    simp only [List.cons_append, List.reverse_cons, List.reverse_append, completed_append]
    -- What lies below the nodes up to `first` once the later siblings are completed.
    have hlate : ∀ j, j < first + 1 + inner.length →
        completed below later.reverse j = if j = parent then forest ++ below j else below j :=
      fun j hj => ihlater (by omega) (fun k hk hk' => hfree k (by omega) (by omega)) hj
    have hfree' : ∀ j, first + 1 ≤ j → j < first + 1 + inner.length →
        completed below later.reverse j = [] := fun j hj hj' => by
      rw [hlate j hj', if_neg (by omega), hfree j (by omega) (by omega)]
    have hmid : ∀ j, j < first + 1 →
        completed (completed below later.reverse) inner.reverse j =
          if j = first then children ++ completed below later.reverse j
          else completed below later.reverse j :=
      fun j hj => ihinner (by omega) hfree' hj
    have hfirst : completed (completed below later.reverse) inner.reverse first = children := by
      rw [hmid first (by omega), if_pos rfl, hlate first (by omega), if_neg (by omega),
        hfree first (by omega) (by omega), List.append_nil]
    simp only [completed]
    by_cases hip : i = parent
    · subst hip
      rw [Function.update_self, if_pos rfl, hfirst, hmid i (by omega), if_neg (by omega),
        hlate i (by omega), if_pos rfl]
    · rw [Function.update_of_ne hip, if_neg hip, hmid i (by omega), if_neg (by omega),
        hlate i (by omega), if_neg hip]

end RuledMarkup.Arena
