import Mathlib.Data.List.Nodup
import Mathlib.Data.List.Perm.Basic
import RuledMarkup.Proofs.Node.Outline
import RuledMarkup.Proofs.Node.Text

/-!
# What the walks visit

A walk keeps the nodes still to be visited in a list.  It visits the nodes as a recursion on the
forest lists them: parents before or after their children, with their depths, or down to the first
nodes that carry text.  A node may look like another one, so the nodes of a forest are told apart by
their addresses.

## Main definitions

* `Forest.parentsFirst`, `Forest.parentsLast` : the nodes of a forest, by recursion.
* `Forest.literal` : the text of a forest, by recursion.
* `Forest.at?` : the node at an address.
* `Forest.Enumerates` : a list has each node of a forest once, with its address.

## Main results

* `Forest.foldPre_eq_foldl`, `Forest.foldPost_eq_foldl` : the walks visit what the recursions list.
* `Forest.textContent_eq_literal` : the text that the walk finds.
* `Forest.enumerates_placesFrom` : the places of a forest, by recursion.
* `Forest.walks_follow_recursion` : all walks together, and each node is visited once.
-/

namespace RuledMarkup

variable {R T : Type} {β : Type}

/-! ### Recursions -/

mutual

/-- The nodes of a tree, parents before their children. -/
def Node.parentsFirst : Node R T → List (Node R T)
  | .mk kind children => .mk kind children :: Forest.parentsFirst children

/-- The nodes of a forest, parents before their children. -/
def Forest.parentsFirst : List (Node R T) → List (Node R T)
  | [] => []
  | node :: forest => node.parentsFirst ++ Forest.parentsFirst forest

end

mutual

/-- The nodes of a tree, parents after their children. -/
def Node.parentsLast : Node R T → List (Node R T)
  | .mk kind children => Forest.parentsLast children ++ [.mk kind children]

/-- The nodes of a forest, parents after their children. -/
def Forest.parentsLast : List (Node R T) → List (Node R T)
  | [] => []
  | node :: forest => node.parentsLast ++ Forest.parentsLast forest

end

mutual

/-- The text of a tree: what its root carries itself, if that carries any text, and otherwise the
text of its children. -/
def Node.literal : Node R T → String
  | .mk kind children =>
    match kind.content? with
    | some content => content
    | none => Forest.literal children

/-- The texts of the trees of a forest, one after the other. -/
def Forest.literal : List (Node R T) → String
  | [] => ""
  | node :: forest => node.literal ++ Forest.literal forest

end

/-- The node at an address below a node: the numbers, from zero on, of the children on the way. -/
def Node.at? (node : Node R T) : List Nat → Option (Node R T)
  | [] => some node
  | i :: address => node.children[i]?.bind fun child => child.at? address

mutual

/-- The nodes of a tree with their addresses, parents before their children. -/
def Node.places : Node R T → List (List Nat × Node R T)
  | .mk kind children => ([], .mk kind children) :: Forest.placesFrom 0 children

/-- The nodes of a forest with their addresses, if its trees are numbered from `first` on. -/
def Forest.placesFrom (first : Nat) : List (Node R T) → List (List Nat × Node R T)
  | [] => []
  | node :: forest =>
    node.places.map (fun (address, found) => (first :: address, found)) ++
      Forest.placesFrom (first + 1) forest

end

namespace Forest

/-- The node at an address: the number of its tree, and its address there. -/
def at? (forest : List (Node R T)) : List Nat → Option (Node R T)
  | [] => none
  | i :: address => forest[i]?.bind fun node => node.at? address

/-- The list has the nodes of the forest with their addresses, and each address once. -/
structure Enumerates (forest : List (Node R T)) (places : List (List Nat × Node R T)) : Prop where
  nodup : (places.map (·.1)).Nodup
  mem_iff : ∀ address node, (address, node) ∈ places ↔ at? forest address = some node

@[simp] theorem parentsFirst_nil : parentsFirst ([] : List (Node R T)) = [] := by
  rw [parentsFirst]

@[simp] theorem parentsFirst_cons (node : Node R T) (forest : List (Node R T)) :
    parentsFirst (node :: forest) =
      node :: (parentsFirst node.children ++ parentsFirst forest) := by
  cases node
  rw [parentsFirst, Node.parentsFirst, Node.children_mk, List.cons_append]

theorem parentsFirst_append (a b : List (Node R T)) :
    parentsFirst (a ++ b) = parentsFirst a ++ parentsFirst b := by
  induction a with
  | nil => simp
  | cons node a ih => simp [ih]

theorem parentsLast_eq_flatMap (forest : List (Node R T)) :
    parentsLast forest = forest.flatMap Node.parentsLast := by
  induction forest with
  | nil => rw [parentsLast, List.flatMap_nil]
  | cons node forest ih => rw [parentsLast, ih, List.flatMap_cons]

@[simp] theorem parentsLast_nil : parentsLast ([] : List (Node R T)) = [] := by
  rw [parentsLast]

@[simp] theorem parentsLast_cons (node : Node R T) (forest : List (Node R T)) :
    parentsLast (node :: forest) = parentsLast node.children ++ node :: parentsLast forest := by
  cases node
  rw [parentsLast, Node.parentsLast, Node.children_mk, List.append_assoc, List.singleton_append]

/-- Both recursions list the same nodes. -/
theorem parentsLast_perm (forest : List (Node R T)) :
    (parentsLast forest).Perm (parentsFirst forest) := by
  induction forest using Forest.induction with
  | nil => simp
  | cons node forest ihchildren ihforest =>
    rw [parentsLast_cons, parentsFirst_cons]
    exact (ihchildren.append (ihforest.cons node)).trans List.perm_middle

/-! ### Walks -/

/-- The walk visits the nodes of the pending trees, one tree after the other. -/
theorem foldPre_eq_foldl (visit : β → Node R T → β) (found : β) (forest : List (Node R T)) :
    foldPre visit found forest = (parentsFirst forest).foldl visit found := by
  induction found, forest using foldPre.induct visit with
  | case1 found => rw [foldPre, parentsFirst_nil, List.foldl_nil]
  | case2 found node pending ih =>
    rw [foldPre, ih, parentsFirst_append, parentsFirst_cons, List.foldl_cons]

/-- What is visited until a step is done. -/
def Step.visits : Step R T → List (Node R T)
  | enter node => node.parentsLast
  | leave node => [node]

theorem flatMap_visits_enter (forest : List (Node R T)) :
    (forest.map Step.enter).flatMap Step.visits = parentsLast forest := by
  rw [List.flatMap_map, parentsLast_eq_flatMap]
  rfl

/-- The walk does the pending steps, one after the other. -/
theorem foldSteps_eq_foldl (visit : β → Node R T → β) (found : β) (steps : List (Step R T)) :
    foldSteps visit found steps = (steps.flatMap Step.visits).foldl visit found := by
  induction found, steps using foldSteps.induct visit with
  | case1 found => rw [foldSteps]; rfl
  | case2 found node pending ih =>
    cases node
    rw [foldSteps, ih, List.flatMap_append, flatMap_visits_enter, List.flatMap_cons,
      List.flatMap_cons, Step.visits, Step.visits, Node.parentsLast, Node.children_mk,
      List.append_assoc]
  | case3 found node pending ih =>
    rw [foldSteps, ih, List.flatMap_cons]
    rfl

theorem foldPost_eq_foldl (visit : β → Node R T → β) (found : β) (forest : List (Node R T)) :
    foldPost visit found forest = (parentsLast forest).foldl visit found := by
  rw [foldPost, foldSteps_eq_foldl, flatMap_visits_enter]

/-- The walk cuts off what is below a node that carries text, as the recursion does. -/
theorem textContent_eq_literal (forest : List (Node R T)) :
    textContent forest = literal forest := by
  induction forest using Forest.induction with
  | nil => rw [textContent_nil, literal]
  | cons node forest ihchildren ihforest =>
    obtain ⟨kind, children⟩ := node
    rw [textContent_cons, ihforest, literal, Node.literal, Node.textContent, ihchildren]
    cases hcontent : kind.content? <;> simp [Node.content?, hcontent]

theorem dump_eq_join (style : T → String) (forest : List (Node R T)) :
    dump style forest =
      String.join ((levelsAt 0 forest).map fun (depth, node) =>
        String.join (List.replicate depth "  ") ++ node.kind.inspect .compact style ++ "\n") := by
  rw [dump_eq, outlineLines, labelsAt, List.map_map, List.map_map]
  exact congrArg String.join (List.map_congr_left fun entry _ => (dumpLine_eq style _ _).symm)

/-! ### Addresses -/

@[simp] theorem placesFrom_nil (first : Nat) : placesFrom first ([] : List (Node R T)) = [] := by
  rw [placesFrom]

@[simp] theorem placesFrom_cons (first : Nat) (node : Node R T) (forest : List (Node R T)) :
    placesFrom first (node :: forest) =
      ([first], node) ::
        ((placesFrom 0 node.children).map (fun (address, found) => (first :: address, found)) ++
          placesFrom (first + 1) forest) := by
  cases node
  rw [placesFrom, Node.places, Node.children_mk, List.map_cons, List.cons_append]

theorem map_snd_placesFrom (first : Nat) (forest : List (Node R T)) :
    (placesFrom first forest).map (·.2) = parentsFirst forest := by
  induction forest using Forest.induction generalizing first with
  | nil => simp
  | cons node forest ihchildren ihforest =>
    simp [ihforest, ← ihchildren 0, Function.comp_def]

theorem map_succ_levelsAt (depth : Nat) (forest : List (Node R T)) :
    (levelsAt depth forest).map (fun (depth, node) => (depth + 1, node)) =
      levelsAt (depth + 1) forest := by
  induction forest using Forest.induction generalizing depth with
  | nil => simp
  | cons node forest ihchildren ihforest => simp [ihchildren, ihforest]

theorem map_length_placesFrom (first depth : Nat) (forest : List (Node R T)) :
    (placesFrom first forest).map (fun (address, node) => (depth + address.length, node)) =
      levelsAt (depth + 1) forest := by
  induction forest using Forest.induction generalizing first depth with
  | nil => simp
  | cons node forest ihchildren ihforest =>
    simp [ihforest, ← ihchildren 0, Function.comp_def, Nat.add_assoc, Nat.add_comm 1]

/-- The depth of a node is the number of nodes above it. -/
theorem levelsAt_zero_eq_map_placesFrom (first : Nat) (forest : List (Node R T)) :
    levelsAt 0 forest =
      (placesFrom first forest).map fun (address, node) => (address.length - 1, node) := by
  calc levelsAt 0 forest
      = (levelsAt 1 forest).map fun (depth, node) => (depth - 1, node) := by
        simp [← map_succ_levelsAt 0, Function.comp_def]
    _ = (placesFrom first forest).map fun (address, node) => (address.length - 1, node) := by
        simp [← map_length_placesFrom first 0, Function.comp_def]

/-- The first number of a place is that of its tree. -/
theorem exists_of_mem_placesFrom {first : Nat} {entry : List Nat × Node R T}
    {forest : List (Node R T)} (h : entry ∈ placesFrom first forest) :
    ∃ i address, first ≤ i ∧ entry.1 = i :: address := by
  induction forest generalizing first with
  | nil => simp at h
  | cons node forest ih =>
    rw [placesFrom_cons, List.mem_cons, List.mem_append, List.mem_map] at h
    obtain rfl | ⟨below, -, rfl⟩ | hlater := h
    · exact ⟨first, [], Nat.le_refl _, rfl⟩
    · exact ⟨first, below.1, Nat.le_refl _, rfl⟩
    · obtain ⟨i, address, hi, haddress⟩ := ih hlater
      exact ⟨i, address, Nat.le_of_succ_le hi, haddress⟩

theorem nil_notMem_map_placesFrom (first : Nat) (forest : List (Node R T)) :
    [] ∉ (placesFrom first forest).map (·.1) := by
  intro h
  obtain ⟨entry, hentry, hnil⟩ := List.mem_map.1 h
  obtain ⟨i, address, -, haddress⟩ := exists_of_mem_placesFrom hentry
  exact nomatch hnil.symm.trans haddress

/-- Later trees have greater numbers. -/
theorem cons_notMem_map_placesFrom {first i : Nat} (hi : i < first) (address : List Nat)
    (forest : List (Node R T)) : i :: address ∉ (placesFrom first forest).map (·.1) := by
  intro h
  obtain ⟨entry, hentry, hcons⟩ := List.mem_map.1 h
  obtain ⟨j, rest, hj, haddress⟩ := exists_of_mem_placesFrom hentry
  have := (List.cons.inj (hcons.symm.trans haddress)).1
  omega

theorem nodup_placesFrom (first : Nat) (forest : List (Node R T)) :
    ((placesFrom first forest).map (·.1)).Nodup := by
  induction forest using Forest.induction generalizing first with
  | nil => simp
  | cons node forest ihchildren ihforest =>
    have hbelow : ((placesFrom 0 node.children).map fun entry => first :: entry.1).Nodup := by
      have := List.Nodup.map (List.cons_injective (a := first)) (ihchildren 0)
      rwa [List.map_map] at this
    rw [placesFrom_cons, List.map_cons, List.map_append, List.map_map, List.nodup_cons,
      List.mem_append, List.nodup_append]
    refine ⟨?_, hbelow, ihforest (first + 1), ?_⟩
    · rintro (h | h)
      · obtain ⟨entry, hentry, hfirst⟩ := List.mem_map.1 h
        exact nil_notMem_map_placesFrom 0 node.children
          (List.mem_map.2 ⟨entry, hentry, (List.cons.inj hfirst).2⟩)
      · exact cons_notMem_map_placesFrom (Nat.lt_succ_self first) [] forest h
    · rintro _ h _ hlater rfl
      obtain ⟨entry, -, rfl⟩ := List.mem_map.1 h
      exact cons_notMem_map_placesFrom (Nat.lt_succ_self first) entry.1 forest hlater

theorem mem_placesFrom_iff {first i : Nat} {address : List Nat} {found : Node R T}
    {forest : List (Node R T)} :
    ((first + i) :: address, found) ∈ placesFrom first forest ↔
      at? forest (i :: address) = some found := by
  induction forest using Forest.induction generalizing first i address with
  | nil => simp [at?]
  | cons node forest ihchildren ihforest =>
    cases i with
    | zero =>
      have hlater : (first :: address, found) ∉ placesFrom (first + 1) forest := fun h =>
        cons_notMem_map_placesFrom (Nat.lt_succ_self first) address forest
          (List.mem_map_of_mem h)
      cases address with
      | nil =>
        have hbelow : ([], found) ∉ placesFrom 0 node.children := fun h =>
          nil_notMem_map_placesFrom 0 node.children (List.mem_map_of_mem h)
        simp [hlater, hbelow, at?, Node.at?, eq_comm]
      | cons j address =>
        have hbelow : ((0 + j) :: address, found) ∈ placesFrom 0 node.children ↔ _ := ihchildren
        rw [Nat.zero_add] at hbelow
        simpa [hlater, at?, Node.at?] using hbelow
    | succ i =>
      have hlater : ((first + 1 + i) :: address, found) ∈ placesFrom (first + 1) forest ↔ _ :=
        ihforest
      rw [Nat.add_assoc, Nat.add_comm 1] at hlater
      simpa [at?] using hlater

/-- Each node of a forest has a place. -/
theorem enumerates_placesFrom (forest : List (Node R T)) :
    Enumerates forest (placesFrom 0 forest) := by
  refine ⟨nodup_placesFrom 0 forest, fun address node => ?_⟩
  cases address with
  | nil =>
    exact iff_of_false
      (fun h => nil_notMem_map_placesFrom 0 forest (List.mem_map_of_mem h)) nofun
  | cons i address =>
    have h : ((0 + i) :: address, node) ∈ placesFrom 0 forest ↔ _ := mem_placesFrom_iff
    rwa [Nat.zero_add] at h

/-- The order of the places does not matter. -/
theorem Enumerates.perm {forest : List (Node R T)} {places others : List (List Nat × Node R T)}
    (h : Enumerates forest places) (hothers : others.Perm places) : Enumerates forest others where
  nodup := (hothers.map _).nodup_iff.2 h.nodup
  mem_iff address node := hothers.mem_iff.trans (h.mem_iff address node)

/-- A list of the same nodes in another order belongs to the places in another order. -/
theorem Enumerates.exists_of_perm {forest visited : List (Node R T)}
    {places : List (List Nat × Node R T)} (h : Enumerates forest places)
    (hvisited : visited.Perm (places.map (·.2))) :
    ∃ others, Enumerates forest others ∧ others.map (·.2) = visited := by
  have hplaces : List.Forall₂ (fun node entry => node = entry.2) (places.map (·.2)) places := by
    rw [List.forall₂_map_left_iff]
    exact List.forall₂_same.2 fun _ _ => rfl
  obtain ⟨others, hothers, hperm⟩ := List.perm_comp_forall₂ hvisited hplaces
  rw [← List.forall₂_map_right_iff, List.forall₂_eq_eq_eq] at hothers
  exact ⟨others, h.perm hperm, hothers.symm⟩

/-- The walks visit the nodes in the order in which the recursions list them, parents first or last.
Each node is visited once, at the place that its address tells.  An outline lists the nodes with
parents first, each indented by two spaces for each node above it.  The text of a forest is that of
the nodes that carry text themselves, without what is below these. -/
theorem walks_follow_recursion (forest : List (Node R T)) :
    (∀ {β : Type} (visit : β → Node R T → β) (found : β),
      foldPre visit found forest = (parentsFirst forest).foldl visit found ∧
      foldPost visit found forest = (parentsLast forest).foldl visit found) ∧
    (∃ places, Enumerates forest places ∧ places.map (·.2) = parentsFirst forest ∧
      ∀ style : T → String, dump style forest = String.join (places.map fun (address, node) =>
        String.join (List.replicate (address.length - 1) "  ") ++
          node.kind.inspect .compact style ++ "\n")) ∧
    (∃ places, Enumerates forest places ∧ places.map (·.2) = parentsLast forest) ∧
    textContent forest = literal forest := by
  refine ⟨fun visit found => ⟨foldPre_eq_foldl visit found forest,
    foldPost_eq_foldl visit found forest⟩, ?_, ?_, textContent_eq_literal forest⟩
  · refine ⟨placesFrom 0 forest, enumerates_placesFrom forest, map_snd_placesFrom 0 forest,
      fun style => ?_⟩
    rw [dump_eq_join, levelsAt_zero_eq_map_placesFrom 0, List.map_map]
    rfl
  · refine (enumerates_placesFrom forest).exists_of_perm ?_
    rw [map_snd_placesFrom]
    exact parentsLast_perm forest

end Forest

end RuledMarkup
