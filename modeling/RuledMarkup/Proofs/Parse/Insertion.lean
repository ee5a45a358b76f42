import Mathlib.Data.List.Induction
import Mathlib.Tactic.Ring
import RuledMarkup.Proofs.Parse.Storage

/-!
# Nodes inserted one by one

The storage of a parse keeps the attached nodes side by side, each in a slot, and puts them together
only when it is finished.  The forest that comes out is the one in which each node is inserted at
once, as the last child that its parent has at that time.  While nodes are inserted they carry their
numbers, which tell where the later ones belong.

## Main definitions

* `NumberedTree` : a tree in which the attached nodes carry their numbers.
* `NumberedTree.insertAt` : inserts a tree as the last child of the node with a number.
* `TreeBuilder.attachAll`, `TreeBuilder.insertAll` : attaches nodes one after the other, and inserts
  them.
* `TreeBuilder.ParentsKnown` : each parent is the root or a node attached before.
* `TreeBuilder.InPlace` : each attached node stands once in a tree, where it belongs.

## Main results

* `TreeBuilder.completed_attachments` : completing nodes inserts them.
* `TreeBuilder.inPlace_insertAll` : inserted nodes stand where they belong.
* `TreeBuilder.finish_inserts_each` : a finished tree is what the insertions put below the root.
-/

namespace RuledMarkup

variable {R T : Type}

/-- A tree in which the attached nodes carry their numbers.  What a node brought along has none. -/
inductive NumberedTree (R T : Type) where
  | mk (number : Option Nat) (kind : Kind R T) (children : List (NumberedTree R T))

namespace NumberedTree

/-- The number of the root. -/
def number : NumberedTree R T → Option Nat
  | mk number _ _ => number

/-- What the root is. -/
def kind : NumberedTree R T → Kind R T
  | mk _ kind _ => kind

/-- The children of the root, in document order. -/
def children : NumberedTree R T → List (NumberedTree R T)
  | mk _ _ children => children

/-- A tree without numbers. -/
def plain : Node R T → NumberedTree R T
  | .mk kind children => mk none kind (children.map plain)

/-- A node that is given a number, with what it brings along. -/
def ofNode (number : Nat) (node : Node R T) : NumberedTree R T :=
  mk (some number) node.kind (node.children.map plain)

/-- The tree as it is without the numbers. -/
def toNode : NumberedTree R T → Node R T
  | mk _ kind children => .mk kind (children.map toNode)

/-- Inserts a tree as the last child of the node with the number `parent`. -/
def insertAt (parent : Nat) (new : NumberedTree R T) : NumberedTree R T → NumberedTree R T
  | mk number kind children =>
    mk number kind
      (children.map (insertAt parent new) ++ if number = some parent then [new] else [])

/-- The numbers of the nodes, in pre-order. -/
def numbers : NumberedTree R T → List Nat
  | mk number _ children => number.toList ++ children.flatMap numbers

/-- The tree and all trees below it, in pre-order. -/
def subtrees : NumberedTree R T → List (NumberedTree R T)
  | mk number kind children => mk number kind children :: children.flatMap subtrees

/-- The tree with more trees behind the children of each node that has a number. -/
def grown (below : Nat → List (Node R T)) : NumberedTree R T → Node R T
  | mk number kind children => .mk kind (children.map (grown below) ++ number.elim [] below)

variable {below : Nat → List (Node R T)} {parent : Nat} {new tree : NumberedTree R T}

@[simp] theorem number_insertAt : (insertAt parent new tree).number = tree.number := by
  cases tree
  rw [insertAt, number, number]

@[simp] theorem kind_insertAt : (insertAt parent new tree).kind = tree.kind := by
  cases tree
  rw [insertAt, kind, kind]

theorem children_insertAt :
    (insertAt parent new tree).children =
      tree.children.map (insertAt parent new) ++
        if tree.number = some parent then [new] else [] := by
  cases tree
  rw [insertAt, children, children, number]

/-! ### Growth -/

theorem grown_nil (tree : NumberedTree R T) : tree.grown (fun _ => []) = tree.toNode := by
  induction tree using toNode.induct with
  | case1 number kind children ih =>
    rw [grown, toNode, List.map_congr_left ih]
    cases number <;> simp

theorem grown_plain (node : Node R T) : (plain node).grown below = node := by
  induction node using plain.induct with
  | case1 kind children ih =>
    have hchildren : children.map (grown below ∘ plain) = children.map id := List.map_congr_left ih
    rw [plain, grown, List.map_map, hchildren, List.map_id]
    exact congrArg _ (List.append_nil _)

theorem grown_ofNode (number : Nat) (node : Node R T) :
    (ofNode number node).grown below = node.addChildren (below number) := by
  have hplain : grown below ∘ plain = (id : Node R T → Node R T) := funext grown_plain
  rw [ofNode, grown, List.map_map, hplain, List.map_id]
  rfl

/-- What is inserted grows with the rest as if it came first behind the children of its parent. -/
theorem grown_insertAt :
    (insertAt parent new tree).grown below =
      tree.grown (Function.update below parent (new.grown below :: below parent)) := by
  induction tree using insertAt.induct with
  | case1 number kind children ih =>
    have hchildren : children.map (grown below ∘ insertAt parent new) =
        children.map (grown (Function.update below parent (new.grown below :: below parent))) :=
      List.map_congr_left ih
    rw [insertAt, grown, grown, List.map_append, List.map_map, hchildren, List.append_assoc]
    congr 2
    cases number with
    | none => simp
    | some number =>
      by_cases hnumber : number = parent <;> simp [hnumber]

/-! ### Numbers -/

theorem numbers_plain (node : Node R T) : (plain node).numbers = [] := by
  induction node using plain.induct with
  | case1 kind children ih =>
    rw [plain, numbers, List.flatMap_map, List.flatMap_eq_nil_iff.2 ih]
    rfl

theorem numbers_ofNode (number : Nat) (node : Node R T) :
    (ofNode number node).numbers = [number] := by
  rw [ofNode, numbers, List.flatMap_map,
    List.flatMap_eq_nil_iff.2 fun child _ => numbers_plain child]
  rfl

theorem count_flatMap_insertAt {i : Nat} {forest : List (NumberedTree R T)}
    (h : ∀ tree ∈ forest, (insertAt parent new tree).numbers.count i =
      tree.numbers.count i + tree.numbers.count parent * new.numbers.count i) :
    ((forest.map (insertAt parent new)).flatMap numbers).count i =
      (forest.flatMap numbers).count i +
        (forest.flatMap numbers).count parent * new.numbers.count i := by
  induction forest with
  | nil => simp
  | cons tree forest ih =>
    obtain ⟨htree, hforest⟩ := List.forall_mem_cons.1 h
    simp only [List.map_cons, List.flatMap_cons, List.count_append, htree, ih hforest]
    ring

/-- The numbers that are inserted come in once for each time that the parent occurs. -/
theorem count_numbers_insertAt (i : Nat) (tree : NumberedTree R T) :
    (insertAt parent new tree).numbers.count i =
      tree.numbers.count i + tree.numbers.count parent * new.numbers.count i := by
  induction tree using insertAt.induct with
  | case1 number kind children ih =>
    rw [insertAt, numbers, numbers, List.flatMap_append, List.count_append, List.count_append,
      List.count_append, List.count_append, count_flatMap_insertAt ih]
    cases number with
    | none => simp
    | some number =>
      by_cases hnumber : number = parent
      · simp [hnumber]
        ring
      · simp [hnumber, Nat.add_assoc]

/-! ### Subtrees -/

theorem mem_subtrees_self (tree : NumberedTree R T) : tree ∈ tree.subtrees := by
  cases tree
  simp [subtrees]

theorem number_of_mem_subtrees_plain {node : Node R T} (h : tree ∈ (plain node).subtrees) :
    tree.number = none := by
  induction node using plain.induct with
  | case1 kind children ih =>
    rw [plain, subtrees, List.flatMap_map, List.mem_cons, List.mem_flatMap] at h
    obtain rfl | ⟨child, hchild, hmem⟩ := h
    · rfl
    · exact ih child hchild hmem

theorem eq_of_mem_subtrees_ofNode {number i : Nat} {node : Node R T}
    (h : tree ∈ (ofNode number node).subtrees) (hi : tree.number = some i) :
    tree = ofNode number node ∧ i = number := by
  rw [ofNode, subtrees, ← ofNode, List.flatMap_map, List.mem_cons, List.mem_flatMap] at h
  obtain rfl | ⟨child, -, hmem⟩ := h
  · exact ⟨rfl, (Option.some.inj hi).symm⟩
  · rw [number_of_mem_subtrees_plain hmem] at hi
    exact nomatch hi

/-- Nothing is inserted below nodes without numbers. -/
theorem insertAt_plain (node : Node R T) : insertAt parent new (plain node) = plain node := by
  induction node using plain.induct with
  | case1 kind children ih =>
    have hchildren : children.map (insertAt parent new ∘ plain) = children.map plain :=
      List.map_congr_left ih
    rw [plain, insertAt, List.map_map, hchildren]
    simp

theorem map_insertAt_plain (forest : List (Node R T)) :
    (forest.map plain).map (insertAt parent new) = forest.map plain := by
  rw [List.map_map]
  exact List.map_congr_left fun node _ => insertAt_plain node

/-- What stands in a tree after an insertion stood there before or has been inserted. -/
theorem mem_subtrees_insertAt {found : NumberedTree R T}
    (h : found ∈ (insertAt parent new tree).subtrees) :
    (∃ old ∈ tree.subtrees, found = insertAt parent new old) ∨ found ∈ new.subtrees := by
  induction tree using insertAt.induct with
  | case1 number kind children ih =>
    rw [insertAt, subtrees, ← insertAt, List.mem_cons, List.flatMap_append, List.flatMap_map,
      List.mem_append, List.mem_flatMap] at h
    obtain rfl | ⟨child, hchild, hmem⟩ | hmem := h
    · exact .inl ⟨_, mem_subtrees_self _, rfl⟩
    · refine (ih child hchild hmem).imp_left ?_
      rintro ⟨old, hold, rfl⟩
      refine ⟨old, ?_, rfl⟩
      rw [subtrees]
      exact List.mem_cons_of_mem _ (List.mem_flatMap.2 ⟨child, hchild, hold⟩)
    · split at hmem
      · exact .inr (by simpa using hmem)
      · simp at hmem

end NumberedTree

namespace TreeBuilder

/-! ### Calls -/

/-- Attaches nodes to an empty storage, each to the parent that is given with it, and tells their
numbers. -/
def attachAll (calls : List (Nat × Node R T)) : TreeBuilder R T × List Nat :=
  calls.foldl (fun (tree, ids) (parent, node) =>
    let (tree, id) := tree.attach parent node
    (tree, ids ++ [id])) ({}, [])

/-- Each node is attached to the root or to a node whose number has been told before. -/
def ParentsKnown (calls : List (Nat × Node R T)) : Prop :=
  ∀ (i : Nat) (h : i < calls.length),
    calls[i].1 = Arena.root ∨ calls[i].1 ∈ (attachAll (calls.take i)).2

/-- The tree of the nodes when each of them is inserted at once.  Its root holds the others
together. -/
def insertAll (calls : List (Nat × Node R T)) : NumberedTree R T :=
  (calls.zipIdx 1).foldl
    (fun tree ((parent, node), number) => NumberedTree.insertAt parent (.ofNode number node) tree)
    (.ofNode Arena.root (.parent []))

/-- The nodes with their numbers: the root, which brings nothing along, and the attached ones. -/
def given (calls : List (Nat × Node R T)) : List (Nat × Node R T) :=
  (Arena.root, .parent []) :: (calls.zipIdx 1).map fun ((_, node), number) => (number, node)

/-- The numbers of the nodes that are attached to a parent, in order. -/
def numbersUnder (calls : List (Nat × Node R T)) (parent : Nat) : List Nat :=
  ((calls.zipIdx 1).filter (·.1.1 = parent)).map (·.2)

/-- The tree is what becomes of the node with a number: behind the children that the node brought
along come the nodes that are attached to it, in the order in which they were attached. -/
def Completes (calls : List (Nat × Node R T)) (number : Nat) (tree : NumberedTree R T) : Prop :=
  ∃ node later, (number, node) ∈ given calls ∧ tree.kind = node.kind ∧
    tree.children = node.children.map NumberedTree.plain ++ later ∧
    later.map NumberedTree.number = (numbersUnder calls number).map some

/-- Each of the nodes stands once in the tree, and what stands there is what becomes of the node. -/
structure InPlace (calls : List (Nat × Node R T)) (tree : NumberedTree R T) : Prop where
  once : ∀ number, tree.numbers.count number = if number ≤ calls.length then 1 else 0
  completes : ∀ found ∈ tree.subtrees, ∀ number, found.number = some number →
    Completes calls number found

variable {calls : List (Nat × Node R T)} {parent : Nat} {node : Node R T}

theorem attachAll_append_singleton (calls : List (Nat × Node R T)) (parent : Nat)
    (node : Node R T) :
    attachAll (calls ++ [(parent, node)]) =
      (((attachAll calls).1.attach parent node).1,
        (attachAll calls).2 ++ [((attachAll calls).1.attach parent node).2]) := by
  rw [attachAll, List.foldl_append]
  rfl

theorem insertAll_append_singleton (calls : List (Nat × Node R T)) (parent : Nat)
    (node : Node R T) :
    insertAll (calls ++ [(parent, node)]) =
      NumberedTree.insertAt parent (.ofNode (calls.length + 1) node) (insertAll calls) := by
  rw [insertAll, List.zipIdx_append, List.foldl_append, Nat.add_comm 1]
  rfl

theorem numbersUnder_append_singleton (calls : List (Nat × Node R T)) (parent : Nat)
    (node : Node R T) (i : Nat) :
    numbersUnder (calls ++ [(parent, node)]) i =
      numbersUnder calls i ++ if parent = i then [calls.length + 1] else [] := by
  rw [numbersUnder, numbersUnder, List.zipIdx_append, List.filter_append, List.map_append,
    Nat.add_comm 1]
  by_cases hi : parent = i <;> simp [hi]

/-- The attached nodes with their numbers, the latest first. -/
def attachments (calls : List (Nat × Node R T)) : List (Attachment R T) :=
  ((calls.zipIdx 1).map fun ((parent, node), id) => ⟨id, parent, node⟩).reverse

@[simp] theorem length_attachments (calls : List (Nat × Node R T)) :
    (attachments calls).length = calls.length := by
  rw [attachments, List.length_reverse, List.length_map, List.length_zipIdx]

theorem attachments_append_singleton (calls : List (Nat × Node R T)) (parent : Nat)
    (node : Node R T) :
    attachments (calls ++ [(parent, node)]) =
      ⟨calls.length + 1, parent, node⟩ :: attachments calls := by
  rw [attachments, List.zipIdx_append, List.map_append, List.reverse_append, Nat.add_comm 1]
  rfl

/-- The calls leave the storage of the nodes that they attach. -/
theorem attachAll_eq_ofAttached (calls : List (Nat × Node R T)) :
    (attachAll calls).1 = ofAttached (attachments calls) := by
  induction calls using List.reverseRecOn with
  | nil => rfl
  | append_singleton calls call ih =>
    obtain ⟨parent, node⟩ := call
    rw [attachAll_append_singleton, attachments_append_singleton, ofAttached_cons, ih]

/-- Nodes are numbered as they are attached. -/
theorem ids_attachAll (calls : List (Nat × Node R T)) :
    (attachAll calls).2 = List.range' 1 calls.length := by
  induction calls using List.reverseRecOn with
  | nil => rfl
  | append_singleton calls call ih =>
    have hsize := (size_ofAttached (attachments calls)).1
    rw [length_attachments] at hsize
    rw [attachAll_append_singleton, ih, attachAll_eq_ofAttached, attach, hsize, List.length_append,
      List.length_singleton, List.range'_1_concat, Nat.add_comm 1]

/-- A parent has been attached before what is attached to it. -/
theorem ParentsKnown.of_append_singleton (h : ParentsKnown (calls ++ [(parent, node)])) :
    ParentsKnown calls ∧ parent ≤ calls.length := by
  constructor
  · intro i hi
    have := h i (by simp; omega)
    rwa [List.getElem_append_left hi, List.take_append_of_le_length (by omega)] at this
  · have := h calls.length (by simp)
    simp only [List.getElem_concat_length, List.take_left', ids_attachAll, List.mem_range'_1,
      Arena.root] at this
    omega

theorem ParentsKnown.parent_lt (h : ParentsKnown calls) :
    ∀ call ∈ calls, call.1 < calls.length := by
  induction calls using List.reverseRecOn with
  | nil => simp
  | append_singleton calls call ih =>
    obtain ⟨hcalls, hparent⟩ := h.of_append_singleton
    intro other hother
    rw [List.length_append, List.length_singleton]
    rcases List.mem_append.1 hother with hother | hother
    · have := ih hcalls other hother
      omega
    · rw [List.mem_singleton.1 hother]
      omega

/-- Nothing is attached to a number that has not been told. -/
theorem numbersUnder_eq_nil (h : ParentsKnown calls) {i : Nat} (hi : calls.length ≤ i) :
    numbersUnder calls i = [] := by
  rw [numbersUnder, List.map_eq_nil_iff, List.filter_eq_nil_iff]
  intro entry hentry
  have := h.parent_lt entry.1 (List.fst_mem_of_mem_zipIdx hentry)
  simp only [decide_eq_true_eq]
  omega

/-! ### The finished tree -/

/-- Calls that know their parents attach nodes in order. -/
theorem inOrder_attachments (h : ParentsKnown calls) : Attachment.InOrder (attachments calls) := by
  induction calls using List.reverseRecOn with
  | nil => exact .nil
  | append_singleton calls call ih =>
    obtain ⟨parent, node⟩ := call
    obtain ⟨hcalls, hparent⟩ := h.of_append_singleton
    rw [attachments_append_singleton, ← length_attachments]
    exact (ih hcalls).cons (by rwa [length_attachments]) node

/-- Completing nodes inserts them, whatever trees have been completed at their numbers. -/
theorem completed_attachments (calls : List (Nat × Node R T)) (below : Nat → List (Node R T)) :
    Arena.completed below (attachments calls) Arena.root =
      ((insertAll calls).grown below).children := by
  induction calls using List.reverseRecOn generalizing below with
  | nil =>
    rw [insertAll, List.zipIdx_nil, List.foldl_nil, NumberedTree.grown_ofNode]
    rfl
  | append_singleton calls call ih =>
    obtain ⟨parent, node⟩ := call
    -- The latest node is completed first: for the older ones it is one more tree at its parent.
    rw [attachments_append_singleton, Arena.completed, ih, insertAll_append_singleton,
      NumberedTree.grown_insertAt, NumberedTree.grown_ofNode]

/-- A finished tree is what stands below the root when its nodes are inserted. -/
theorem finish_attachAll (h : ParentsKnown calls) :
    (attachAll calls).1.finish = (insertAll calls).toNode.children := by
  rw [attachAll_eq_ofAttached, finish_ofAttached (inOrder_attachments h), completed_attachments,
    NumberedTree.grown_nil]

/-! ### The inserted nodes -/

/-- Each of the nodes is inserted once. -/
theorem count_numbers_insertAll (h : ParentsKnown calls) (number : Nat) :
    (insertAll calls).numbers.count number = if number ≤ calls.length then 1 else 0 := by
  induction calls using List.reverseRecOn generalizing number with
  | nil =>
    rw [insertAll, List.zipIdx_nil, List.foldl_nil, NumberedTree.numbers_ofNode,
      List.count_singleton, Arena.root, List.length_nil]
    simp only [beq_iff_eq]
    split_ifs <;> omega
  | append_singleton calls call ih =>
    obtain ⟨parent, node⟩ := call
    obtain ⟨hcalls, hparent⟩ := h.of_append_singleton
    rw [insertAll_append_singleton, NumberedTree.count_numbers_insertAt, ih hcalls, ih hcalls,
      if_pos hparent, Nat.one_mul, NumberedTree.numbers_ofNode, List.length_append,
      List.length_singleton, List.count_singleton]
    simp only [beq_iff_eq]
    split_ifs <;> omega

theorem given_append_singleton (calls : List (Nat × Node R T)) (parent : Nat) (node : Node R T) :
    given (calls ++ [(parent, node)]) = given calls ++ [(calls.length + 1, node)] := by
  rw [given, given, List.zipIdx_append, List.map_append, Nat.add_comm 1]
  rfl

/-- A node to which nothing is attached stands as it is. -/
theorem completes_ofNode {number : Nat} (hgiven : (number, node) ∈ given calls)
    (hnone : numbersUnder calls number = []) :
    Completes calls number (.ofNode number node) :=
  ⟨node, [], hgiven, rfl, (List.append_nil _).symm, by rw [hnone]; rfl⟩

/-- The next node comes behind the nodes that are attached to its parent. -/
theorem Completes.insertAt {number : Nat} {tree : NumberedTree R T}
    (h : Completes calls number tree) (hnumber : tree.number = some number) :
    Completes (calls ++ [(parent, node)]) number
      (NumberedTree.insertAt parent (.ofNode (calls.length + 1) node) tree) := by
  obtain ⟨carrier, later, hgiven, hkind, hchildren, hlater⟩ := h
  let new := NumberedTree.ofNode (calls.length + 1) node
  refine ⟨carrier, later.map (NumberedTree.insertAt parent new) ++
    if number = parent then [new] else [], ?_, ?_, ?_, ?_⟩
  · rw [given_append_singleton]
    exact List.mem_append_left _ hgiven
  · rw [NumberedTree.kind_insertAt, hkind]
  · rw [NumberedTree.children_insertAt, hchildren, hnumber, List.map_append,
      NumberedTree.map_insertAt_plain, List.append_assoc]
    simp [new]
  · have hmap : later.map (NumberedTree.number ∘ NumberedTree.insertAt parent new) =
        later.map NumberedTree.number := List.map_congr_left fun _ _ => NumberedTree.number_insertAt
    rw [numbersUnder_append_singleton, List.map_append, List.map_append, List.map_map, hmap, hlater]
    by_cases hparent : number = parent
    · simp [hparent, new, NumberedTree.ofNode, NumberedTree.number]
    · simp [hparent, Ne.symm hparent]

theorem inPlace_insertAll (h : ParentsKnown calls) : InPlace calls (insertAll calls) := by
  refine ⟨count_numbers_insertAll h, ?_⟩
  induction calls using List.reverseRecOn with
  | nil =>
    intro found hfound number hnumber
    obtain ⟨rfl, rfl⟩ := NumberedTree.eq_of_mem_subtrees_ofNode hfound hnumber
    exact completes_ofNode List.mem_cons_self rfl
  | append_singleton calls call ih =>
    obtain ⟨parent, node⟩ := call
    intro found hfound number hnumber
    rw [insertAll_append_singleton] at hfound
    rcases NumberedTree.mem_subtrees_insertAt hfound with ⟨old, hold, rfl⟩ | hnew
    · rw [NumberedTree.number_insertAt] at hnumber
      exact (ih h.of_append_singleton.1 old hold number hnumber).insertAt hnumber
    · obtain ⟨rfl, rfl⟩ := NumberedTree.eq_of_mem_subtrees_ofNode hnew hnumber
      refine completes_ofNode ?_ (numbersUnder_eq_nil h ?_)
      · rw [given_append_singleton]
        exact List.mem_append_right _ List.mem_cons_self
      · rw [List.length_append, List.length_singleton]

/-- Nodes are numbered as they are attached.  If each is attached to the root or to a node attached
before, the finished tree is the forest in which each node has been inserted at once, as the last
child that its parent had then.  There each node stands once, under its parent, behind the children
that the parent brought along and the nodes that were attached to the parent before. -/
theorem finish_inserts_each (h : ParentsKnown calls) :
    (attachAll calls).2 = List.range' 1 calls.length ∧
      (attachAll calls).1.finish = (insertAll calls).toNode.children ∧
      InPlace calls (insertAll calls) :=
  ⟨ids_attachAll calls, finish_attachAll h, inPlace_insertAll h⟩

/-- A node that brings a child along gets two more, the second one after other nodes have been
attached elsewhere. -/
theorem finish_inserts_each_late_child :
    let calls : List (Nat × Node Unit Unit) :=
      [(0, .parent [.text "own"]), (1, .parent []), (0, .text "next"), (2, .text "deep"),
        (1, .text "late")]
    ParentsKnown calls ∧
      (attachAll calls).1.finish =
        [.parent [.text "own", .parent [.text "deep"], .text "late"], .text "next"] ∧
      InPlace calls (insertAll calls) := by
  intro calls
  have hknown : ParentsKnown calls := by
    unfold ParentsKnown
    decide
  obtain ⟨-, hfinish, hplace⟩ := finish_inserts_each hknown
  refine ⟨hknown, hfinish.trans ?_, hplace⟩
  simp [insertAll, calls, Arena.root, NumberedTree.ofNode, NumberedTree.insertAt,
    NumberedTree.toNode, NumberedTree.plain, Node.parent, Node.text, Node.leaf]

end TreeBuilder

end RuledMarkup
