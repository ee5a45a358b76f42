import Mathlib.Data.List.Basic
import Mathlib.Data.List.Nodup
import RuledMarkup.Proofs.Parse.Growth

/-!
# Nodes taken out of their slots

The storage of a parse is put together by a loop that goes through the numbers from the last to the
first.  A node is moved when the turn comes to its parent, which has a smaller number, so it has
been completed by then and nothing has taken it before.  While the loop runs, the slot of a node is
empty if its parent has had its turn; else it holds the completed node if the node has had its own
turn, and the node as it was attached if not.  So no slot is ever found empty where a node is
wanted, and the forest is the one that completion with a function gives.

## Main definitions

* `Attachment.InOrder` : nodes are numbered as they are attached, to the root or to earlier ones.
* `TreeBuilder.Completing` : what the slots hold while the loop runs.

## Main results

* `TreeBuilder.Completing.complete` : what one turn of the loop keeps.
* `TreeBuilder.finish_ofAttached` : the forest that is put together.
* `Arena.attach_agrees` : an arena keeps up with the storage.
* `Arena.finish_of_grown` : the forest of an arena that has grown by a forest.
-/

namespace RuledMarkup

variable {R T : Type}

/-! ### Attachments in order -/

/-- Nodes, the latest of which comes first, have been numbered as they were attached, each to the
root or to a node attached before. -/
inductive Attachment.InOrder : List (Attachment R T) → Prop
  | nil : InOrder []
  | cons {older : List (Attachment R T)} {parent : Nat} (h : InOrder older)
      (hparent : parent ≤ older.length) (node : Node R T) :
      InOrder (⟨older.length + 1, parent, node⟩ :: older)

namespace Attachment.InOrder

variable {attached : List (Attachment R T)}

theorem lt_id (h : InOrder attached) :
    ∀ entry ∈ attached, entry.parent < entry.id ∧ entry.id ≤ attached.length := by
  induction h with
  | nil => simp
  | cons h hparent node ih =>
    refine List.forall_mem_cons.2
      ⟨⟨Nat.lt_succ_of_le hparent, Nat.le_refl _⟩, fun entry hentry => ?_⟩
    exact ⟨(ih entry hentry).1, Nat.le_succ_of_le (ih entry hentry).2⟩

theorem pairwise_id (h : InOrder attached) :
    attached.Pairwise fun later earlier => earlier.id < later.id := by
  induction h with
  | nil => exact .nil
  | cons h hparent node ih =>
    exact .cons (fun entry hentry => Nat.lt_succ_of_le (h.lt_id entry hentry).2) ih

/-- A stretch that amounts to a forest has been attached in order. -/
theorem append_of_grown {first parent : Nat} {made older : List (Attachment R T)}
    {forest : List (Node R T)} (hgrown : Arena.Grown first parent made forest)
    (h : InOrder older) (hfirst : first = older.length + 1) (hparent : parent < first) :
    InOrder (made.reverse ++ older) := by
  induction hgrown generalizing older with
  | nil => exact h
  | @node first parent root inner later below forest hinner hlater ihinner ihlater =>
    subst hfirst
    have hroot := h.cons (Nat.le_of_lt_succ hparent) root
    have hbelow := ihinner hroot rfl (by omega)
    have hrest := ihlater hbelow (by simp; omega) (by omega)
    simpa using hrest

end Attachment.InOrder

namespace TreeBuilder

/-! ### Slots -/

section Slots

variable {slots : Array (Option (Node R T))}

theorem getD_setIfInBounds_none (id i : Nat) :
    (slots.setIfInBounds id none).getD i none = if i = id then none else slots.getD i none := by
  rw [Array.getD_eq_getD_getElem?, Array.getD_eq_getD_getElem?, Array.getElem?_setIfInBounds]
  split_ifs <;> simp_all

theorem getD_modify_map (f : Node R T → Node R T) (id i : Nat) :
    (slots.modify id (·.map f)).getD i none =
      if i = id then (slots.getD i none).map f else slots.getD i none := by
  rw [Array.getD_eq_getD_getElem?, Array.getD_eq_getD_getElem?, Array.getElem?_modify]
  by_cases hi : id = i
  · subst hi
    cases slots[id]? <;> simp
  · rw [if_neg hi, if_neg (Ne.symm hi)]

theorem take_cons (id : Nat) (ids : List Nat) :
    take slots (id :: ids) =
      ((slots.getD id none).toList ++ (take (slots.setIfInBounds id none) ids).1,
        (take (slots.setIfInBounds id none) ids).2) := rfl

/-- Nodes with different numbers are taken as they stand, and their slots are empty afterwards. -/
theorem take_eq (slots : Array (Option (Node R T))) {ids : List Nat} (hids : ids.Nodup) :
    (take slots ids).1 = ids.filterMap (slots.getD · none) ∧
      ∀ i, (take slots ids).2.getD i none = if i ∈ ids then none else slots.getD i none := by
  induction ids generalizing slots with
  | nil => simp [take]
  | cons id ids ih =>
    obtain ⟨hid, hids⟩ := List.nodup_cons.1 hids
    obtain ⟨hnodes, hslots⟩ := ih (slots.setIfInBounds id none) hids
    constructor
    · -- The numbers behind are other ones, so their slots are what they were.
      have hlater : ids.filterMap ((slots.setIfInBounds id none).getD · none) =
          ids.filterMap (slots.getD · none) := List.filterMap_congr fun i hi => by
        rw [getD_setIfInBounds_none, if_neg (ne_of_mem_of_not_mem hi hid)]
      rw [take_cons, hnodes, hlater, List.filterMap_cons]
      cases slots.getD id none <;> rfl
    · intro i
      rw [take_cons, hslots, getD_setIfInBounds_none]
      by_cases hi : i = id <;> simp [hi]

end Slots

/-! ### Storage of attached nodes -/

section Attached

variable {attached : List (Attachment R T)}

theorem ofAttached_cons (entry : Attachment R T) (older : List (Attachment R T)) :
    ofAttached (entry :: older) = ((ofAttached older).attach entry.parent entry.node).1 := rfl

theorem size_ofAttached (attached : List (Attachment R T)) :
    (ofAttached attached).slots.size = attached.length + 1 ∧
      (ofAttached attached).children.size = attached.length + 1 := by
  induction attached with
  | nil => exact ⟨rfl, rfl⟩
  | cons entry older ih =>
    rw [ofAttached_cons, attach, List.length_cons]
    simpa using ih

/-- Each node has a slot of its own. -/
theorem getD_slots_ofAttached (h : Attachment.InOrder attached) :
    ∀ entry ∈ attached, (ofAttached attached).slots.getD entry.id none = some entry.node := by
  induction h with
  | nil => simp
  | @cons older parent h hparent node ih =>
    have hsize := (size_ofAttached older).1
    rw [ofAttached_cons, attach]
    refine List.forall_mem_cons.2 ⟨by simp [← hsize], fun entry hentry => ?_⟩
    have hid := (h.lt_id entry hentry).2
    rw [← ih entry hentry, Array.getD_eq_getD_getElem?, Array.getD_eq_getD_getElem?,
      Array.getElem?_push, if_neg (by omega)]

/-- What is attached to a number is kept there, in order. -/
theorem getD_children_ofAttached (h : Attachment.InOrder attached) (i : Nat) :
    ((ofAttached attached).children.getD i #[]).toList =
      (attached.reverse.filter (·.parent = i)).map (·.id) := by
  induction h with
  | nil =>
    cases i <;> rfl
  | @cons older parent h hparent node ih =>
    obtain ⟨hslots, hchildren⟩ := size_ofAttached older
    rw [ofAttached_cons, attach, List.reverse_cons, List.filter_append,
      List.map_append, ← ih]
    simp only [Array.getD_eq_getD_getElem?, Array.getElem?_modify, Array.getElem?_push, hslots,
      hchildren]
    by_cases hi : parent = i
    · subst hi
      have hlt : parent < (ofAttached older).children.size := by omega
      simp [show parent ≠ older.length + 1 by omega, hlt]
    · by_cases hnew : i = older.length + 1
      · subst hnew
        simp [hi, Array.getElem?_eq_none (Nat.le_of_eq hchildren)]
      · simp [hi, hnew]

end Attached

/-! ### The loop -/

/-- The node together with the completed nodes that have been attached to it. -/
def whole (attached : List (Attachment R T)) (entry : Attachment R T) : Node R T :=
  entry.node.addChildren (Arena.completed (fun _ => []) attached entry.id)

/-- What the slot of a node holds when it is the turn of the number `turn`: nothing if its parent
has had its turn, the completed node if it has had its own, and else the node as it was attached. -/
def slotAt (attached : List (Attachment R T)) (turn : Nat) (entry : Attachment R T) :
    Option (Node R T) :=
  if turn < entry.parent then none
  else some (if turn < entry.id then whole attached entry else entry.node)

/-- The slots are what they are when it is the turn of the number `turn`. -/
def Completing (attached : List (Attachment R T)) (turn : Nat)
    (slots : Array (Option (Node R T))) : Prop :=
  ∀ entry ∈ attached, slots.getD entry.id none = slotAt attached turn entry

section Loop

variable {attached : List (Attachment R T)} {slots : Array (Option (Node R T))} {turn : Nat}

theorem completed_eq_map_whole (h : Attachment.InOrder attached) (i : Nat) :
    Arena.completed (fun _ => []) attached i =
      (attached.reverse.filter (·.parent = i)).map (whole attached) := by
  rw [Arena.completed_eq _ (fun entry hentry => (h.lt_id entry hentry).1) h.pairwise_id,
    List.append_nil]
  rfl

/-- At the start nothing has had its turn. -/
theorem completing_ofAttached (h : Attachment.InOrder attached) :
    Completing attached attached.length (ofAttached attached).slots := by
  intro entry hentry
  obtain ⟨hparent, hid⟩ := h.lt_id entry hentry
  rw [getD_slots_ofAttached h entry hentry, slotAt, if_neg (by omega), if_neg (by omega)]

/-- What is attached to the number whose turn it is has been completed and is still in its slots. -/
theorem Completing.take_eq (h : Attachment.InOrder attached)
    (hslots : Completing attached turn slots) :
    let taken := take slots ((ofAttached attached).children.getD turn #[]).toList
    taken.1 = Arena.completed (fun _ => []) attached turn ∧
      ∀ entry ∈ attached, taken.2.getD entry.id none =
        if entry.parent = turn then none else slotAt attached turn entry := by
  intro taken
  have hchildren := getD_children_ofAttached h turn
  have hnodup : (attached.reverse.map (·.id)).Nodup := by
    rw [List.map_reverse, List.nodup_reverse, List.Nodup, List.pairwise_map]
    exact h.pairwise_id.imp fun hlt => Nat.ne_of_gt hlt
  have hids : ((attached.reverse.filter (·.parent = turn)).map (·.id)).Nodup :=
    hnodup.sublist (List.filter_sublist.map _)
  obtain ⟨hnodes, htaken⟩ := TreeBuilder.take_eq slots hids
  constructor
  · simp only [taken]
    rw [hchildren, hnodes, completed_eq_map_whole h, List.filterMap_map, ← List.filterMap_eq_map]
    refine List.filterMap_congr fun entry hentry => ?_
    obtain ⟨hmem, hparent⟩ := List.mem_filter.1 hentry
    have hmem := List.mem_reverse.1 hmem
    have hlt := (h.lt_id entry hmem).1
    have hparent := of_decide_eq_true hparent
    rw [Function.comp_apply, hslots entry hmem, slotAt, if_neg (by omega), if_pos (by omega)]
    rfl
  · intro entry hentry
    simp only [taken]
    rw [hchildren, htaken, ← hslots entry hentry]
    have hiff : entry.id ∈ (attached.reverse.filter (·.parent = turn)).map (·.id) ↔
        entry.parent = turn := by
      constructor
      · intro hmem
        obtain ⟨other, hother, hid⟩ := List.mem_map.1 hmem
        obtain ⟨hother, hparent⟩ := List.mem_filter.1 hother
        obtain rfl := List.inj_on_of_nodup_map hnodup hother (List.mem_reverse.2 hentry) hid
        exact of_decide_eq_true hparent
      · intro hparent
        exact List.mem_map_of_mem (List.mem_filter.2 ⟨List.mem_reverse.2 hentry, by simpa⟩)
    simp only [hiff]

/-- In its turn a number takes what is attached to it and gets complete. -/
theorem Completing.complete (h : Attachment.InOrder attached)
    (hslots : Completing attached (turn + 1) slots) :
    Completing attached turn
      (TreeBuilder.complete (ofAttached attached).children slots (turn + 1)) := by
  intro entry hentry
  obtain ⟨hnodes, htaken⟩ := hslots.take_eq h
  have hlt := (h.lt_id entry hentry).1
  rw [TreeBuilder.complete, getD_modify_map, hnodes, htaken entry hentry]
  by_cases hid : entry.id = turn + 1
  · have hbefore : slotAt attached (turn + 1) entry = some entry.node := by
      rw [slotAt, if_neg (by omega), if_neg (by omega)]
    have hafter : slotAt attached turn entry = some (whole attached entry) := by
      rw [slotAt, if_neg (by omega), if_pos (by omega)]
    rw [if_pos hid, if_neg (by omega), hbefore, hafter, whole, hid]
    rfl
  · -- A node with another number moves if its parent has the turn, and stays as it is if not.
    rw [if_neg hid, slotAt, slotAt]
    split_ifs <;> first | rfl | omega

/-- The turns from some number down. -/
theorem Completing.foldl_complete (h : Attachment.InOrder attached)
    (hslots : Completing attached turn slots) :
    Completing attached 0
      ((List.range' 1 turn).reverse.foldl
        (TreeBuilder.complete (ofAttached attached).children) slots) := by
  induction turn generalizing slots with
  | zero => exact hslots
  | succ turn ih =>
    rw [List.range'_1_concat, List.reverse_append, List.reverse_singleton, List.foldl_append,
      Nat.add_comm 1]
    exact ih (hslots.complete h)

/-- Nodes that have been attached in order are put together as completion with a function does. -/
theorem finish_ofAttached (h : Attachment.InOrder attached) :
    (ofAttached attached).finish = Arena.completed (fun _ => []) attached Arena.root := by
  have hturns := (completing_ofAttached h).foldl_complete h
  rw [finish, completeAll, (size_ofAttached attached).1, Nat.add_sub_cancel]
  exact (hturns.take_eq h).1

end Loop

end TreeBuilder

/-- An arena that has counted its nodes keeps up with the storage: the same number is told, and what
is kept is the storage of the nodes. -/
theorem Arena.attach_agrees {arena : Arena R T} (hcount : arena.count = arena.attached.length)
    (parent : Nat) (node : Node R T) :
    (TreeBuilder.ofAttached (arena.attach parent node).1.attached,
      (arena.attach parent node).2) =
        (TreeBuilder.ofAttached arena.attached).attach parent node := by
  rw [attach, TreeBuilder.ofAttached_cons, TreeBuilder.attach,
    (TreeBuilder.size_ofAttached arena.attached).1, hcount]

/-- An arena whose attachments amount to a forest under the root is finished to that forest. -/
theorem Arena.finish_of_grown {arena : Arena R T} {made : List (Attachment R T)}
    {forest : List (Node R T)} (hmade : arena.attached = made.reverse)
    (h : Grown 1 root made forest) : arena.finish = forest := by
  have horder : Attachment.InOrder (made.reverse ++ []) :=
    .append_of_grown h .nil rfl Nat.one_pos
  rw [List.append_nil] at horder
  rw [finish, hmade, TreeBuilder.finish_ofAttached horder,
    completed_of_grown h Nat.one_pos (fun _ _ _ => rfl) (i := root) Nat.one_pos, if_pos rfl,
    List.append_nil]

end RuledMarkup
