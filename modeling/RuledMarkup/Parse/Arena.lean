import RuledMarkup.Node.Basic

/-!
# The tree of a parse under construction

While a parse runs, nodes are attached one by one to a node attached before or to the root.  Nodes
are numbered as they are attached and the root has number zero, so a node has a greater number than
its parent.  Each node is put in a slot of its own, and for each number the numbers of the nodes
attached there are kept.  At the end the slots are gone through from the last to the first: what was
attached to a node is taken out of its slots and added to the node.  When a node's turn comes, all
nodes below it have been completed.

## Main definitions

* `TreeBuilder` : slots for nodes, and the numbers of what is attached to them.
* `TreeBuilder.attach`, `TreeBuilder.finish` : attaches a node, and puts the nodes together.
* `Arena` : the nodes attached so far, in the order of the calls.
* `Arena.finish` : the forest of the attached nodes.
-/

namespace RuledMarkup

variable {R T : Type}

/-- The number of the root. -/
def Arena.root : Nat := 0

/-- Storage for a tree under construction.  Slot zero belongs to the root and stays empty. -/
structure TreeBuilder (R T : Type) where
  /-- The nodes that have not been taken yet. -/
  slots : Array (Option (Node R T)) := #[none]
  /-- The numbers of the nodes that are attached to each node, in order. -/
  children : Array (Array Nat) := #[#[]]

namespace TreeBuilder

/-- Attaches a node to the root or to a node attached before, and tells its number. -/
def attach (tree : TreeBuilder R T) (parent : Nat) (node : Node R T) : TreeBuilder R T × Nat :=
  let id := tree.slots.size
  (⟨tree.slots.push (some node), (tree.children.push #[]).modify parent (·.push id)⟩, id)

/-- Takes the nodes with some numbers out of their slots.  Empty slots are passed over. -/
def take (slots : Array (Option (Node R T))) :
    List Nat → List (Node R T) × Array (Option (Node R T))
  | [] => ([], slots)
  | id :: ids =>
    let found := slots.getD id none
    let (nodes, slots) := take (slots.setIfInBounds id none) ids
    (found.toList ++ nodes, slots)

/-- Adds what is attached to a node to it, if it has not been taken itself. -/
def complete (children : Array (Array Nat)) (slots : Array (Option (Node R T))) (id : Nat) :
    Array (Option (Node R T)) :=
  let (attached, slots) := take slots (children.getD id #[]).toList
  slots.modify id fun found => found.map (·.addChildren attached)

/-- The slots after all nodes but the root have been completed, from the last to the first. -/
def completeAll (tree : TreeBuilder R T) : Array (Option (Node R T)) :=
  (List.range' 1 (tree.slots.size - 1)).reverse.foldl (complete tree.children) tree.slots

/-- The forest of the nodes: when all are complete, those attached to the root are taken. -/
def finish (tree : TreeBuilder R T) : List (Node R T) :=
  (take tree.completeAll (tree.children.getD Arena.root #[]).toList).1

end TreeBuilder

/-- An attached node: its number, the number of its parent, and the node as it was attached. -/
structure Attachment (R T : Type) where
  id : Nat
  parent : Nat
  node : Node R T

/-- The storage after nodes have been attached, of which the latest comes first. -/
def TreeBuilder.ofAttached (attached : List (Attachment R T)) : TreeBuilder R T :=
  attached.foldr (fun entry tree => (tree.attach entry.parent entry.node).1) {}

/-- The nodes attached so far, the latest first. -/
structure Arena (R T : Type) where
  count : Nat := 0
  attached : List (Attachment R T) := []

namespace Arena

/-- Attaches a node and tells its number. -/
def attach (arena : Arena R T) (parent : Nat) (node : Node R T) : Arena R T × Nat :=
  let id := arena.count + 1
  (⟨id, ⟨id, parent, node⟩ :: arena.attached⟩, id)

/-- The forest of the attached nodes: each is the last child of its parent at the time it was
attached, after the children that the parent brought along. -/
def finish (arena : Arena R T) : List (Node R T) := (TreeBuilder.ofAttached arena.attached).finish

end Arena

end RuledMarkup
