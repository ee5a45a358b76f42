import RuledMarkup.Node.Basic

/-!
# Walks through a forest

The walks keep the nodes still to be visited in a list, so that they need no deeper calls for a
deeper tree.  The first node of the list is visited next.

## Main definitions

* `Forest.foldPre`, `Forest.foldPost` : visits every node, parents before or after their children.
* `Forest.foldLevels` : visits every node with its depth, parents first.
* `Forest.textContent` : the text of a forest.
* `Forest.same` : are two forests equal, apart from styles known only when they are rendered.
-/

namespace RuledMarkup.Forest

variable {R T : Type} {β : Type}

/-- Visits every node, parents before their children. -/
def foldPre (visit : β → Node R T → β) (found : β) : List (Node R T) → β
  | [] => found
  | node :: pending => foldPre visit (visit found node) (node.children ++ pending)
termination_by pending => size pending
decreasing_by simp [Node.size_eq node]

/-- A node to be entered, or one whose children have been visited. -/
inductive Step (R T : Type) where
  | enter (node : Node R T)
  | leave (node : Node R T)

/-- How much is still to be done for a step. -/
def Step.weight : Step R T → Nat
  | enter node => 2 * node.size
  | leave _ => 1

/-- How much is still to be done for some steps. -/
def stepsWeight : List (Step R T) → Nat
  | [] => 0
  | step :: pending => step.weight + stepsWeight pending

theorem stepsWeight_append (a b : List (Step R T)) :
    stepsWeight (a ++ b) = stepsWeight a + stepsWeight b := by
  induction a with
  | nil => simp [stepsWeight]
  | cons step a ih => simp [stepsWeight, ih, Nat.add_assoc]

theorem stepsWeight_enter (forest : List (Node R T)) :
    stepsWeight (forest.map Step.enter) = 2 * size forest := by
  induction forest with
  | nil => simp [stepsWeight]
  | cons node forest ih => simp [stepsWeight, Step.weight, ih]; omega

/-- Takes the steps that are pending. -/
def foldSteps (visit : β → Node R T → β) (found : β) : List (Step R T) → β
  | [] => found
  | .enter node :: pending =>
    foldSteps visit found (node.children.map .enter ++ .leave node :: pending)
  | .leave node :: pending => foldSteps visit (visit found node) pending
termination_by pending => stepsWeight pending
decreasing_by
  · rw [stepsWeight_append, stepsWeight_enter]
    simp [stepsWeight, Step.weight, Node.size_eq node]; omega
  · simp [stepsWeight, Step.weight]

/-- Visits every node, parents after their children. -/
def foldPost (visit : β → Node R T → β) (found : β) (forest : List (Node R T)) : β :=
  foldSteps visit found (forest.map .enter)

/-- The number of nodes in a list of nodes with depths. -/
def levelsSize : List (Nat × Node R T) → Nat
  | [] => 0
  | entry :: pending => entry.2.size + levelsSize pending

theorem levelsSize_append (a b : List (Nat × Node R T)) :
    levelsSize (a ++ b) = levelsSize a + levelsSize b := by
  induction a with
  | nil => simp [levelsSize]
  | cons entry a ih => simp [levelsSize, ih, Nat.add_assoc]

theorem levelsSize_map (depth : Nat) (forest : List (Node R T)) :
    levelsSize (forest.map (depth, ·)) = size forest := by
  induction forest with
  | nil => simp [levelsSize]
  | cons node forest ih => simp [levelsSize, ih]

/-- Visits the nodes of a list and what is below them, with their depths. -/
def foldLevelsFrom (visit : β → Nat → Node R T → β) (found : β) : List (Nat × Node R T) → β
  | [] => found
  | (depth, node) :: pending =>
    foldLevelsFrom visit (visit found depth node) (node.children.map (depth + 1, ·) ++ pending)
termination_by pending => levelsSize pending
decreasing_by
  rw [levelsSize_append, levelsSize_map]
  simp [levelsSize, Node.size_eq node]

/-- Visits every node with its depth, parents before their children. -/
def foldLevels (visit : β → Nat → Node R T → β) (found : β) (forest : List (Node R T)) : β :=
  foldLevelsFrom visit found (forest.map (0, ·))

/-- Adds the text of a forest: of a node that carries text itself that text, and otherwise the text
of its children. -/
def addText (found : String) : List (Node R T) → String
  | [] => found
  | node :: pending =>
    match node.content? with
    | some content => addText (found ++ content) pending
    | none => addText found (node.children ++ pending)
termination_by pending => size pending
decreasing_by
  · have := node.size_pos
    simp; omega
  · simp [Node.size_eq node]

/-- The text of a forest. -/
def textContent (forest : List (Node R T)) : String := addText "" forest

/-- The nodes of a forest, parents before their children. -/
def preOrder (forest : List (Node R T)) : List (Node R T) :=
  (foldPre (fun found node => node :: found) [] forest).reverse

/-- The nodes of a forest, parents after their children. -/
def postOrder (forest : List (Node R T)) : List (Node R T) :=
  (foldPost (fun found node => node :: found) [] forest).reverse

/-- The nodes of a forest with their depths, parents before their children. -/
def levels (forest : List (Node R T)) : List (Nat × Node R T) :=
  (foldLevels (fun found depth node => (depth, node) :: found) [] forest).reverse

/-- The number of nodes on the left of a list of pairs. -/
def pairsSize : List (Node R T × Node R T) → Nat
  | [] => 0
  | pair :: pending => pair.1.size + pairsSize pending

theorem pairsSize_append (a b : List (Node R T × Node R T)) :
    pairsSize (a ++ b) = pairsSize a + pairsSize b := by
  induction a with
  | nil => simp [pairsSize]
  | cons pair a ih => simp [pairsSize, ih, Nat.add_assoc]

theorem pairsSize_zip_le (a b : List (Node R T)) : pairsSize (a.zip b) ≤ size a := by
  induction a generalizing b with
  | nil => simp [pairsSize]
  | cons node a ih =>
    cases b with
    | nil => simp [pairsSize]
    | cons other b => simp [pairsSize, ih]

/-- Are the trees of every pair equal? -/
def samePairs [BEq T] : List (Node R T × Node R T) → Bool
  | [] => true
  | (a, b) :: pending =>
    if a.kind.same b.kind && a.children.length == b.children.length then
      samePairs (a.children.zip b.children ++ pending)
    else false
termination_by pending => pairsSize pending
decreasing_by
  rw [pairsSize_append]
  have := pairsSize_zip_le a.children b.children
  simp [pairsSize, Node.size_eq a]; omega

/-- Are two forests equal, apart from styles known only when they are rendered? -/
def same [BEq T] (a b : List (Node R T)) : Bool :=
  a.length == b.length && samePairs (a.zip b)

end RuledMarkup.Forest
