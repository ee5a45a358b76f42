import RuledMarkup.Proofs.Node.PreOrder
import RuledMarkup.Proofs.Node.Spans

/-!
# Marks over marks

Of two marks with a common byte, one belongs to a node below the node of the other, and it was
attached first.  The mark of the outer node holds all of the inner one, except for the mark on the
first character of a list item, which may be narrower than the marks of the nodes below it.

## Main definitions

* `Mark.Under` : two marks are disjoint, or the second one belongs to a node around the first one.
* `Kind.SparesFirstChars` : a list item puts no styles of a certain sort on its first character.

## Main results

* `Forest.pairwise_under` : of two marks of a forest the first one is under the second one.
-/

namespace RuledMarkup

open Text

variable {R T : Type}

/-! ### Marks of outer nodes -/

/-- The list item puts no styles of which `counts` holds on its first character. -/
def Kind.SparesFirstChars (counts : List T → Prop) (ctx : R) : Kind R T → Prop
  | .listItem bullet => ¬ counts (bullet.styles ctx)
  | _ => True

namespace Mark

/-- The two marks have no byte in common, or the second one belongs to a node further up, and holds
the first one if its styles count. -/
def Under (counts : List T → Prop) (a b : Mark T) : Prop :=
  a.range.stop ≤ b.range.start ∨ b.range.stop ≤ a.range.start ∨
    b.depth < a.depth ∧
      (counts b.styles → b.range.start ≤ a.range.start ∧ a.range.stop ≤ b.range.stop)

end Mark

variable {counts : List T → Prop}

theorem pairwise_under_openingMarks (depth start : Nat) (opening : String)
    (name attributes : List T) :
    (openingMarks depth start opening name attributes).Pairwise (Mark.Under counts) := by
  simp [openingMarks, Mark.Under]

theorem of_mem_openingMarks {depth start : Nat} {opening : String} {name attributes : List T}
    {mark : Mark T} (h : mark ∈ openingMarks depth start opening name attributes) :
    mark.depth = depth ∧ mark.range.stop ≤ start + opening.utf8ByteSize + 2 := by
  have hopening := utf8ByteSize_tagParts opening
  simp only [openingMarks, List.mem_cons, List.not_mem_nil, or_false] at h
  rcases h with rfl | rfl | rfl <;> refine ⟨rfl, ?_⟩ <;> simp only <;> omega

theorem of_mem_closingMarks {depth start : Nat} {closing : Option String} {name : List T}
    {mark : Mark T} (h : mark ∈ closingMarks depth start closing name) :
    mark.depth = depth ∧ start ≤ mark.range.start := by
  cases closing with
  | none => cases h
  | some closing =>
    rw [closingMarks] at h
    split_ifs at h
    · cases h
    · rw [List.mem_singleton.1 h]
      exact ⟨rfl, Nat.le_succ start⟩

theorem pairwise_under_closingMarks (depth start : Nat) (closing : Option String) (name : List T) :
    (closingMarks depth start closing name).Pairwise (Mark.Under counts) := by
  cases closing with
  | none => exact .nil
  | some closing =>
    rw [closingMarks]
    split_ifs
    · exact .nil
    · exact List.pairwise_singleton ..

/-- A mark of an outer node comes behind those of the nodes below it. -/
theorem pairwise_under_outer {depth : Nat} {marks : List (Mark T)} {outer : Mark T}
    (hmarks : (∀ mark ∈ marks, depth + 1 ≤ mark.depth) ∧ marks.Pairwise (Mark.Under counts))
    (hdepth : outer.depth = depth)
    (houter : counts outer.styles → ∀ mark ∈ marks,
      outer.range.start ≤ mark.range.start ∧ mark.range.stop ≤ outer.range.stop) :
    (∀ mark ∈ marks ++ [outer], depth ≤ mark.depth) ∧
      (marks ++ [outer]).Pairwise (Mark.Under counts) := by
  obtain ⟨hbelow, hpairs⟩ := hmarks
  rw [List.forall_mem_append, List.pairwise_append]
  refine ⟨⟨fun mark hmark => Nat.le_of_succ_le (hbelow mark hmark), ?_⟩, hpairs,
    List.pairwise_singleton .., fun mark hmark other hother => .inr (.inr ?_)⟩
  · exact List.forall_mem_singleton.2 (Nat.le_of_eq hdepth.symm)
  · rw [List.mem_singleton.1 hother]
    exact ⟨hdepth ▸ hbelow mark hmark, fun hcounts => houter hcounts mark hmark⟩

mutual

/-- The marks of a tree belong to its root or to nodes below it, and of two of them the first one is
under the second one. -/
theorem Node.pairwise_under {ctx : R} (depth start : Nat) {node : Node R T}
    (h : ∀ below ∈ Forest.preOrder [node], below.kind.SparesFirstChars counts ctx) :
    (∀ mark ∈ node.marks ctx depth start, depth ≤ mark.depth) ∧
      (node.marks ctx depth start).Pairwise (Mark.Under counts) := by
  obtain ⟨kind, children⟩ := node
  rw [Forest.preOrder_cons, List.forall_mem_cons, List.forall_mem_append] at h
  have hchildren (start : Nat) := Forest.pairwise_under (depth + 1) start h.2.1
  have hrange {start : Nat} {mark : Mark T}
      (h : mark ∈ Forest.marks ctx (depth + 1) start children) := Forest.range_of_mem_marks h
  cases kind with
  | parent | definition | function | field | text =>
    obtain ⟨hdepth, hunder⟩ := hchildren _
    exact ⟨fun mark hmark => Nat.le_of_succ_le (hdepth mark hmark), hunder⟩
  | mention => exact ⟨by simp [Node.marks], .nil⟩
  | style | inlineCode =>
    refine pairwise_under_outer (hchildren start) rfl fun _ mark hmark => ?_
    have := hrange hmark
    exact ⟨this.1, this.2.2⟩
  | styledText content =>
    refine pairwise_under_outer (hchildren _) rfl fun _ mark hmark => ?_
    have := hrange hmark
    simp only
    omega
  | code language body styles =>
    refine pairwise_under_outer (hchildren start) rfl fun _ mark hmark => ?_
    have hinner := hrange hmark
    cases children with
    | nil => cases hmark
    | cons => exact ⟨hinner.1, hinner.2.2⟩
  | listItem bullet =>
    refine pairwise_under_outer (hchildren start) rfl fun hcounts => ?_
    exact absurd hcounts h.1
  | tag opening closing name attributes =>
    obtain ⟨hdepth, hunder⟩ := hchildren (start + opening.utf8ByteSize + 2)
    simp only [Node.marks]
    constructor
    · simp only [List.forall_mem_append]
      exact ⟨⟨fun mark hmark => Nat.le_of_eq (of_mem_openingMarks hmark).1.symm,
        fun mark hmark => Nat.le_of_succ_le (hdepth mark hmark)⟩,
        fun mark hmark => Nat.le_of_eq (of_mem_closingMarks hmark).1.symm⟩
    · -- The three parts of a tag stand in a row.
      simp only [List.pairwise_append, List.mem_append]
      refine ⟨⟨pairwise_under_openingMarks .., hunder, fun a ha b hb => .inl ?_⟩,
        pairwise_under_closingMarks .., fun a ha b hb => .inl ?_⟩
      · have hopening := of_mem_openingMarks ha
        have hinner := hrange hb
        omega
      · have hclosing := of_mem_closingMarks hb
        rcases ha with ha | ha
        · have hopening := of_mem_openingMarks ha
          omega
        · have hinner := hrange ha
          omega

/-- The marks of a forest belong to its roots or to nodes below them, and of two of them the first
one is under the second one. -/
theorem Forest.pairwise_under {ctx : R} (depth start : Nat) {forest : List (Node R T)}
    (h : ∀ below ∈ Forest.preOrder forest, below.kind.SparesFirstChars counts ctx) :
    (∀ mark ∈ Forest.marks ctx depth start forest, depth ≤ mark.depth) ∧
      (Forest.marks ctx depth start forest).Pairwise (Mark.Under counts) := by
  cases forest with
  | nil => exact ⟨by simp [Forest.marks], .nil⟩
  | cons node forest =>
    rw [← List.singleton_append, Forest.preOrder_append, List.forall_mem_append] at h
    obtain ⟨hdepth, hunder⟩ := Node.pairwise_under depth start h.1
    obtain ⟨hdepth', hunder'⟩ := Forest.pairwise_under depth (start + node.width ctx) h.2
    rw [Forest.marks, List.forall_mem_append, List.pairwise_append]
    refine ⟨⟨hdepth, hdepth'⟩, hunder, hunder', fun a ha b hb => .inl ?_⟩
    exact Nat.le_trans (Node.range_of_mem_marks ha).2.2 (Forest.range_of_mem_marks hb).1

end

end RuledMarkup
