import RuledMarkup.Proofs.Node.PreOrder

/-!
# Nodes with their depths

The walk that visits the nodes of a forest with their depths lists them in pre-order, each one level
below its parent.

## Main definitions

* `Node.levelsAt`, `Forest.levelsAt` : the nodes of a tree and of a forest with their depths, by
  recursion.

## Main results

* `Forest.foldLevelsFrom_eq_foldl` : the walk visits the pending trees one after the other.
* `Forest.foldLevels_eq_foldl` : the walk visits the nodes as the recursion lists them.
* `Forest.map_levelsAt` : without their depths these are the nodes in pre-order.
-/

namespace RuledMarkup

variable {R T : Type} {β : Type}

mutual

/-- The nodes of a tree with their depths, if its root is at a given depth. -/
def Node.levelsAt (depth : Nat) : Node R T → List (Nat × Node R T)
  | .mk kind children => (depth, .mk kind children) :: Forest.levelsAt (depth + 1) children

/-- The nodes of a forest with their depths, if its roots are at a given depth. -/
def Forest.levelsAt (depth : Nat) : List (Node R T) → List (Nat × Node R T)
  | [] => []
  | node :: forest => node.levelsAt depth ++ Forest.levelsAt depth forest

end

namespace Forest

@[simp] theorem levelsAt_nil (depth : Nat) : levelsAt depth ([] : List (Node R T)) = [] := by
  rw [levelsAt]

@[simp] theorem levelsAt_cons (depth : Nat) (node : Node R T) (forest : List (Node R T)) :
    levelsAt depth (node :: forest) =
      (depth, node) :: (levelsAt (depth + 1) node.children ++ levelsAt depth forest) := by
  cases node
  rw [levelsAt, Node.levelsAt, Node.children_mk, List.cons_append]

theorem levelsAt_eq_flatMap (depth : Nat) (forest : List (Node R T)) :
    levelsAt depth forest =
      (forest.map (depth, ·)).flatMap fun entry => entry.2.levelsAt entry.1 := by
  induction forest with
  | nil => rfl
  | cons node forest ih => rw [levelsAt, ih, List.map_cons, List.flatMap_cons]

/-- The walk visits the pending trees one after the other, each as the recursion lists it. -/
theorem foldLevelsFrom_eq_foldl (visit : β → Nat → Node R T → β) (found : β)
    (pending : List (Nat × Node R T)) :
    foldLevelsFrom visit found pending =
      (pending.flatMap fun entry => entry.2.levelsAt entry.1).foldl
        (fun found entry => visit found entry.1 entry.2) found := by
  induction found, pending using foldLevelsFrom.induct visit with
  | case1 found => rw [foldLevelsFrom]; rfl
  | case2 found depth node pending ih =>
    cases node
    rw [foldLevelsFrom, ih, List.flatMap_append, ← levelsAt_eq_flatMap, List.flatMap_cons,
      Node.levelsAt, List.cons_append, List.foldl_cons, Node.children_mk]

/-- The walk visits the nodes as the recursion lists them. -/
theorem foldLevels_eq_foldl (visit : β → Nat → Node R T → β) (found : β)
    (forest : List (Node R T)) :
    foldLevels visit found forest =
      (levelsAt 0 forest).foldl (fun found entry => visit found entry.1 entry.2) found := by
  rw [foldLevels, foldLevelsFrom_eq_foldl, levelsAt_eq_flatMap]

/-- Something holds of all forests if it holds of the empty one, and of any other one when it holds
below its first root and of its later trees. -/
@[elab_as_elim] theorem induction {P : List (Node R T) → Prop} (nil : P [])
    (cons : ∀ node forest, P node.children → P forest → P (node :: forest))
    (forest : List (Node R T)) : P forest := by
  induction forest using (measure size).wf.induction with
  | _ forest ih =>
    cases forest with
    | nil => exact nil
    | cons node forest =>
      refine cons node forest (ih _ ?_) (ih _ ?_)
      all_goals
        change size _ < size (node :: forest)
        rw [size_cons, node.size_eq]
        omega

/-- Without their depths the nodes are in pre-order. -/
theorem map_levelsAt (depth : Nat) (forest : List (Node R T)) :
    (levelsAt depth forest).map (·.2) = preOrder forest := by
  induction forest using Forest.induction generalizing depth with
  | nil => simp
  | cons node forest ihchildren ihforest => simp [ihchildren, ihforest]

theorem length_levelsAt (depth : Nat) (forest : List (Node R T)) :
    (levelsAt depth forest).length = size forest := by
  induction forest using Forest.induction generalizing depth with
  | nil => simp
  | cons node forest ihchildren ihforest =>
    simp [ihchildren, ihforest, node.size_eq, Nat.add_comm, Nat.add_left_comm]

end Forest

end RuledMarkup
