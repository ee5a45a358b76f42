import RuledMarkup.Node.Walk

/-!
# Nodes in pre-order

The walk through a forest that visits parents before their children keeps the nodes still to be
visited in a list.  It visits each tree as a whole: first its root, then what is below the root, and
then the later trees.

## Main results

* `Forest.preOrder_cons`, `Forest.preOrder_append` : the nodes of a forest, tree by tree.
* `Forest.forall_mem_preOrder_iff` : the nodes of a forest are its roots and what is below them.
-/

namespace RuledMarkup.Forest

variable {R T : Type} {β : Type}

theorem foldPre_append (visit : β → Node R T → β) (found : β) (a b : List (Node R T)) :
    foldPre visit found (a ++ b) = foldPre visit (foldPre visit found a) b := by
  induction found, a using foldPre.induct visit with
  | case1 found => simp [foldPre]
  | case2 found node pending ih =>
    rw [List.append_assoc] at ih
    simp [foldPre, ih]

/-- The pending nodes are found on top of those that have been found. -/
theorem foldPre_cons_eq (found forest : List (Node R T)) :
    foldPre (fun found node => node :: found) found forest =
      (preOrder forest).reverse ++ found := by
  rw [preOrder, List.reverse_reverse]
  induction forest using (measure size).wf.induction generalizing found with
  | _ forest ih =>
    cases forest with
    | nil => simp [foldPre]
    | cons node pending =>
      have hsize : size (node.children ++ pending) < size (node :: pending) := by
        rw [size_cons, size_append, node.size_eq]
        omega
      rw [foldPre, foldPre.eq_def _ [] (node :: pending)]
      dsimp only
      rw [ih _ hsize, ih _ hsize [node], List.append_assoc, List.singleton_append]

@[simp] theorem preOrder_nil : preOrder ([] : List (Node R T)) = [] := by
  simp [preOrder, foldPre]

theorem preOrder_append (a b : List (Node R T)) :
    preOrder (a ++ b) = preOrder a ++ preOrder b := by
  rw [preOrder, foldPre_append, foldPre_cons_eq, foldPre_cons_eq, List.append_nil,
    List.reverse_append, List.reverse_reverse, List.reverse_reverse]

@[simp] theorem preOrder_cons (node : Node R T) (forest : List (Node R T)) :
    preOrder (node :: forest) = node :: (preOrder node.children ++ preOrder forest) := by
  rw [← List.singleton_append, preOrder_append, preOrder, foldPre, foldPre_cons_eq, List.append_nil]
  simp

/-- Something holds of every node of a forest if it holds of its roots and of what is below them. -/
theorem forall_mem_preOrder_iff {P : Node R T → Prop} {forest : List (Node R T)} :
    (∀ node ∈ preOrder forest, P node) ↔
      ∀ top ∈ forest, P top ∧ ∀ node ∈ preOrder top.children, P node := by
  induction forest with
  | nil => simp
  | cons top forest ih =>
    rw [preOrder_cons, List.forall_mem_cons, List.forall_mem_append, ih, List.forall_mem_cons,
      and_assoc]

end RuledMarkup.Forest
