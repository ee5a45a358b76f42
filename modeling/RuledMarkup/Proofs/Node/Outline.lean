import RuledMarkup.Proofs.Node.KindNames
import RuledMarkup.Proofs.Node.Levels

/-!
# An outline shows the whole forest

The outline of a forest has one line for each node, and two forests have the same outline just if
they are equal, apart from styles known only when they are rendered.  A line ends where a line end
stands, the spaces at its beginning tell the depth of the node, and the rest of it tells the kind;
and the depths of the nodes in pre-order tell which node is whose child.

## Main definitions

* `Forest.Alike` : two forests have the same shape, with the same kinds in the same places.
* `Forest.StylesNamed` : the styles in a forest have names.

## Main results

* `Forest.same_iff_alike` : comparing forests pair by pair compares them as wholes.
* `Forest.dump_eq` : the outline of a forest, line by line.
* `Forest.alike_of_labels` : depths and kinds in pre-order determine a forest.
* `Forest.dump_identifies` : outlines have a line for each node and tell forests apart.
-/

namespace RuledMarkup.Forest

open Text

variable {R T : Type} {a b forest : List (Node R T)} {style : T → String}

/-! ### Equal forests -/

/-- Two forests have the same shape, and nodes in the same place are of the same kind. -/
inductive Alike [BEq T] : List (Node R T) → List (Node R T) → Prop
  | nil : Alike [] []
  | cons {first other : Node R T} {rest others : List (Node R T)}
      (hkind : first.kind.same other.kind = true) (hchildren : Alike first.children other.children)
      (hrest : Alike rest others) : Alike (first :: rest) (other :: others)

section Alike

variable [BEq T]

theorem alike_cons_iff {first other : Node R T} {rest others : List (Node R T)} :
    Alike (first :: rest) (other :: others) ↔
      first.kind.same other.kind = true ∧ Alike first.children other.children ∧
        Alike rest others := by
  constructor
  · rintro (_ | ⟨hkind, hchildren, hrest⟩)
    exact ⟨hkind, hchildren, hrest⟩
  · rintro ⟨hkind, hchildren, hrest⟩
    exact .cons hkind hchildren hrest

/-- Forests are alike if they have as many trees and these are alike in pairs. -/
theorem alike_iff_zip :
    Alike a b ↔ a.length = b.length ∧ ∀ pair ∈ a.zip b, Alike [pair.1] [pair.2] := by
  induction a generalizing b with
  | nil =>
    cases b with
    | nil => simp [Alike.nil]
    | cons other b => simpa using nofun
  | cons first a ih =>
    cases b with
    | nil => simpa using nofun
    | cons other b =>
      rw [alike_cons_iff, ih, List.zip_cons_cons, List.forall_mem_cons, alike_cons_iff]
      simp only [List.length_cons, Nat.add_right_cancel_iff, Alike.nil, and_true]
      tauto

/-- Comparing the pairs that are pending compares their trees as wholes. -/
theorem samePairs_iff (pending : List (Node R T × Node R T)) :
    samePairs pending = true ↔ ∀ pair ∈ pending, Alike [pair.1] [pair.2] := by
  induction pending using samePairs.induct with
  | case1 => simp [samePairs]
  | case2 first other pending h ih =>
    obtain ⟨hkind, hlength⟩ := Bool.and_eq_true_iff.1 h
    rw [samePairs, if_pos h, ih, List.forall_mem_append, List.forall_mem_cons, alike_cons_iff,
      alike_iff_zip]
    simp [hkind, beq_iff_eq.1 hlength, Alike.nil]
  | case3 first other pending h =>
    rw [samePairs, if_neg h, List.forall_mem_cons, alike_cons_iff]
    simp only [Bool.false_eq_true, false_iff]
    rintro ⟨⟨hkind, hchildren, -⟩, -⟩
    exact h (by simp [hkind, (alike_iff_zip.1 hchildren).1])

/-- Comparing forests pair by pair compares them as wholes. -/
theorem same_iff_alike : same a b = true ↔ Alike a b := by
  rw [same, Bool.and_eq_true_iff, beq_iff_eq, samePairs_iff, ← alike_iff_zip]

end Alike

/-! ### Depths and kinds -/

section Levels

variable {α : Type} {label : Kind R T → α} {x y : List (Nat × α)}

/-- The depths of nodes in pre-order, with labels for their kinds. -/
def labelsAt (label : Kind R T → α) (depth : Nat) (forest : List (Node R T)) : List (Nat × α) :=
  (levelsAt depth forest).map fun entry => (entry.1, label entry.2.kind)

@[simp] theorem labelsAt_nil (depth : Nat) :
    labelsAt label depth ([] : List (Node R T)) = [] := by
  simp [labelsAt]

@[simp] theorem labelsAt_cons (depth : Nat) (node : Node R T) (forest : List (Node R T)) :
    labelsAt label depth (node :: forest) =
      (depth, label node.kind) ::
        (labelsAt label (depth + 1) node.children ++ labelsAt label depth forest) := by
  simp [labelsAt]

theorem exists_of_mem_labelsAt {depth : Nat} {entry : Nat × α}
    (h : entry ∈ labelsAt label depth forest) :
    ∃ node ∈ preOrder forest, entry.2 = label node.kind := by
  obtain ⟨⟨_, node⟩, hmem, rfl⟩ := List.mem_map.1 h
  refine ⟨node, ?_, rfl⟩
  rw [← map_levelsAt depth]
  exact List.mem_map_of_mem hmem

/-- What comes behind the nodes of a forest does not begin below its roots. -/
theorem fst_head?_labelsAt {depth : Nat} (hx : ∀ entry ∈ x.head?, entry.1 < depth + 1) :
    ∀ entry ∈ (labelsAt label depth forest ++ x).head?, entry.1 < depth + 1 := by
  cases forest with
  | nil => simpa using hx
  | cons node forest => simp

variable [BEq T]

/-- Depths and kinds in pre-order determine a forest, and what comes behind it at a lower depth. -/
theorem alike_of_labels {depth : Nat}
    (hlabel : ∀ node ∈ preOrder a, ∀ other ∈ preOrder b, label node.kind = label other.kind →
      node.kind.same other.kind = true)
    (hx : ∀ entry ∈ x.head?, entry.1 < depth) (hy : ∀ entry ∈ y.head?, entry.1 < depth)
    (h : labelsAt label depth a ++ x = labelsAt label depth b ++ y) : Alike a b ∧ x = y := by
  induction a using Forest.induction generalizing b depth x y with
  | nil =>
    cases b with
    | nil => exact ⟨.nil, by simpa using h⟩
    | cons other b =>
      rw [labelsAt_nil, List.nil_append, labelsAt_cons, List.cons_append] at h
      rw [h] at hx
      exact absurd (hx _ rfl) (Nat.lt_irrefl depth)
  | cons node a ihchildren ihrest =>
    cases b with
    | nil =>
      rw [labelsAt_nil, List.nil_append, labelsAt_cons, List.cons_append] at h
      rw [← h] at hy
      exact absurd (hy _ rfl) (Nat.lt_irrefl depth)
    | cons other b =>
      have hroot := hlabel node (by simp) other (by simp)
      have hbelow : ∀ n ∈ preOrder node.children, ∀ m ∈ preOrder other.children,
          label n.kind = label m.kind → n.kind.same m.kind = true := fun n hn m hm =>
        hlabel n (by simp [hn]) m (by simp [hm])
      have hlater : ∀ n ∈ preOrder a, ∀ m ∈ preOrder b, label n.kind = label m.kind →
          n.kind.same m.kind = true := fun n hn m hm => hlabel n (by simp [hn]) m (by simp [hm])
      simp only [labelsAt_cons, List.cons_append, List.append_assoc, List.cons.injEq,
        Prod.mk.injEq, true_and] at h
      obtain ⟨hkind, h⟩ := h
      obtain ⟨hchildren, h⟩ := ihchildren hbelow
        (fst_head?_labelsAt fun entry hentry => Nat.lt_succ_of_lt (hx entry hentry))
        (fst_head?_labelsAt fun entry hentry => Nat.lt_succ_of_lt (hy entry hentry)) h
      obtain ⟨hrest, rfl⟩ := ihrest hlater hx hy h
      exact ⟨.cons (hroot hkind) hchildren hrest, rfl⟩

/-- Forests that are alike have the same depths and kinds in pre-order. -/
theorem Alike.labelsAt_eq (h : Alike a b)
    (hlabel : ∀ k l : Kind R T, k.same l = true → label k = label l) (depth : Nat) :
    labelsAt label depth a = labelsAt label depth b := by
  induction h generalizing depth with
  | nil => rfl
  | cons hkind _ _ ihchildren ihrest =>
    rw [labelsAt_cons, labelsAt_cons, hlabel _ _ hkind, ihchildren, ihrest]

end Levels

/-! ### Lines -/

/-- The line of a node without its end. -/
def outlineLine (entry : Nat × String) : String :=
  String.ofList (List.replicate (2 * entry.1) ' ') ++ entry.2

theorem dumpLine_eq (style : T → String) (depth : Nat) (node : Node R T) :
    dumpLine style depth node =
      outlineLine (depth, node.kind.inspect .compact style) ++ "\n" := by
  have hindent (n : Nat) : String.join (List.replicate n "  ") =
      String.ofList (List.replicate (2 * n) ' ') := by
    refine String.toList_inj.1 ?_
    induction n with
    | zero => rfl
    | succ n ih =>
      rw [List.replicate_succ, String.join_cons, String.toList_append, ih, Nat.mul_succ]
      simp [List.replicate_succ]
  rw [dumpLine, outlineLine, hindent]

/-- The lines of the outline of a forest. -/
def outlineLines (style : T → String) (forest : List (Node R T)) : List String :=
  (labelsAt (Kind.inspect .compact style) 0 forest).map outlineLine

theorem length_outlineLines (style : T → String) (forest : List (Node R T)) :
    (outlineLines style forest).length = size forest := by
  rw [outlineLines, labelsAt, List.length_map, List.length_map, length_levelsAt]

/-- The outline of a forest, line by line. -/
theorem dump_eq (style : T → String) (forest : List (Node R T)) :
    dump style forest = String.join ((outlineLines style forest).map (· ++ "\n")) := by
  have hfold (entries : List (Nat × Node R T)) (found : String) :
      entries.foldl (fun found entry => found ++ dumpLine style entry.1 entry.2) found =
        found ++ String.join (entries.map fun entry => dumpLine style entry.1 entry.2) := by
    induction entries generalizing found with
    | nil => simp
    | cons entry entries ih => simp [ih, String.append_assoc]
  rw [dump, foldLevels_eq_foldl, hfold, outlineLines, labelsAt]
  simp [dumpLine_eq, Function.comp_def]

/-- The spaces at the beginning of a line tell the depth. -/
theorem outlineLine_inj {entry other : Nat × String} (hentry : entry.2.toList.head? ≠ some ' ')
    (hother : other.2.toList.head? ≠ some ' ') (h : outlineLine entry = outlineLine other) :
    entry = other := by
  obtain ⟨depth, text⟩ := entry
  obtain ⟨depth', text'⟩ := other
  have hspaces (n : Nat) : ∀ c ∈ List.replicate n ' ', decide (c = ' ') = true := by simp
  have hends {cs : List Char} (hcs : cs.head? ≠ some ' ') :
      ∀ c ∈ cs.head?, decide (c = ' ') = false := by
    rintro c hc
    simpa using fun hspace : c = ' ' => hcs (hspace ▸ hc)
  have hchars := congrArg String.toList h
  simp only [outlineLine, String.toList_append, String.toList_ofList] at hchars
  obtain ⟨hindent, htext⟩ := append_inj_of_head? (hspaces _) (hspaces _) (hends hentry)
    (hends hother) hchars
  have hlength := congrArg List.length hindent
  simp only [List.length_replicate] at hlength
  obtain rfl : depth = depth' := by omega
  obtain rfl : text = text' := String.toList_inj.1 htext
  rfl

theorem map_outlineLine_inj {x y : List (Nat × String)}
    (hx : ∀ entry ∈ x, entry.2.toList.head? ≠ some ' ')
    (hy : ∀ entry ∈ y, entry.2.toList.head? ≠ some ' ')
    (h : x.map outlineLine = y.map outlineLine) : x = y := by
  induction x generalizing y with
  | nil => simpa using h
  | cons entry x ih =>
    cases y with
    | nil => simp at h
    | cons other y =>
      obtain ⟨hentry, hx⟩ := List.forall_mem_cons.1 hx
      obtain ⟨hother, hy⟩ := List.forall_mem_cons.1 hy
      rw [List.map_cons, List.map_cons, List.cons.injEq] at h
      rw [outlineLine_inj hentry hother h.1, ih hx hy h.2]

/-- The kind on a line does not begin with a space. -/
theorem head?_of_mem_labelsAt {depth : Nat} :
    ∀ entry ∈ labelsAt (Kind.inspect .compact style) depth forest,
      entry.2.toList.head? ≠ some ' ' := by
  intro entry hentry hhead
  obtain ⟨node, -, htext⟩ := exists_of_mem_labelsAt hentry
  obtain ⟨rest, hrest⟩ := List.head?_eq_some_iff.1 hhead
  rw [htext, Kind.inspect_eq, String.toList_append] at hrest
  exact node.kind.isName_name.append_ne_cons (by decide) _ _ hrest

/-- Texts are parted into lines in one way. -/
theorem lines_inj {lines others : List String} (hlines : ∀ line ∈ lines, '\n' ∉ line.toList)
    (hothers : ∀ line ∈ others, '\n' ∉ line.toList)
    (h : String.join (lines.map (· ++ "\n")) = String.join (others.map (· ++ "\n"))) :
    lines = others := by
  induction lines generalizing others with
  | nil =>
    cases others with
    | nil => rfl
    | cons other others => simpa using congrArg String.toList h
  | cons line lines ih =>
    cases others with
    | nil => simpa using congrArg String.toList h
    | cons other others =>
      obtain ⟨hline, hlines⟩ := List.forall_mem_cons.1 hlines
      obtain ⟨hother, hothers⟩ := List.forall_mem_cons.1 hothers
      have hchars := congrArg String.toList h
      simp only [List.map_cons, String.join_cons, String.toList_append, List.append_assoc] at hchars
      obtain ⟨hfirst, hrest⟩ := append_cons_inj hline hother hchars
      rw [String.toList_inj.1 hfirst, ih hlines hothers (String.toList_inj.1 hrest)]

/-! ### Outlines -/

/-- The styles in a forest have names. -/
def StylesNamed (style : T → String) (forest : List (Node R T)) : Prop :=
  ∀ node ∈ preOrder forest, node.kind.StylesNamed style

theorem line_end_notMem_outlineLines (h : StylesNamed style forest) :
    ∀ line ∈ outlineLines style forest, '\n' ∉ line.toList := by
  intro line hline
  obtain ⟨⟨depth, text⟩, hentry, rfl⟩ := List.mem_map.1 hline
  obtain ⟨node, hnode, rfl⟩ := exists_of_mem_labelsAt hentry
  have hkind := Kind.line_end_notMem_inspect (h node hnode)
  simpa [outlineLine] using hkind

variable [BEq T] [LawfulBEq T]

/-- Forests with the same outline are alike. -/
theorem alike_of_dump_eq (hstyle : Function.Injective style) (ha : StylesNamed style a)
    (hb : StylesNamed style b) (h : dump style a = dump style b) : Alike a b := by
  rw [dump_eq, dump_eq] at h
  have hlines := lines_inj (line_end_notMem_outlineLines ha) (line_end_notMem_outlineLines hb) h
  have hlabels := map_outlineLine_inj head?_of_mem_labelsAt head?_of_mem_labelsAt hlines
  refine (alike_of_labels (x := []) (y := []) (fun node hnode other hother => ?_) nofun nofun
    (congrArg (· ++ []) hlabels)).1
  exact (Kind.inspect_eq_iff hstyle (ha node hnode) (hb other hother)).1

/-- The outline of a forest has one line for each node, and it is the outline of no other forest,
apart from styles known only when they are rendered. -/
theorem dump_identifies (hstyle : Function.Injective style) (ha : StylesNamed style a)
    (hb : StylesNamed style b) :
    (∃ lines : List String, lines.length = size a ∧ (∀ line ∈ lines, '\n' ∉ line.toList) ∧
      dump style a = String.join (lines.map (· ++ "\n"))) ∧
    (dump style a = dump style b ↔ same a b = true) ∧ (same a b = true ↔ Alike a b) := by
  refine ⟨⟨_, length_outlineLines style a, line_end_notMem_outlineLines ha, dump_eq style a⟩, ?_,
    same_iff_alike⟩
  rw [same_iff_alike]
  refine ⟨alike_of_dump_eq hstyle ha hb, fun h => ?_⟩
  rw [dump_eq, dump_eq, outlineLines, outlineLines,
    h.labelsAt_eq (fun k l hkind => Kind.inspect_eq_of_same hkind _)]

/-- A text below a style is told from the same text behind it, line end and quotes or not. -/
theorem dump_tells_below_from_behind :
    let text : Node Unit String := ⟨.text "one\n\"two\"", []⟩
    let below : List (Node Unit String) := [⟨.style ["Bold"], [text]⟩]
    let behind : List (Node Unit String) := [⟨.style ["Bold"], []⟩, text]
    Function.Injective (id : String → String) ∧ StylesNamed id below ∧ StylesNamed id behind ∧
      dump id below ≠ dump id behind := by
  intro text below behind
  have hname : IsName "Bold" := by decide
  have hbelow : StylesNamed id below := by
    simp [StylesNamed, Kind.StylesNamed, Kind.styles, below, text, hname]
  have hbehind : StylesNamed id behind := by
    simp [StylesNamed, Kind.StylesNamed, Kind.styles, behind, text, hname]
  obtain ⟨-, hdump, hsame⟩ := dump_identifies Function.injective_id hbelow hbehind
  refine ⟨Function.injective_id, hbelow, hbehind, fun h => ?_⟩
  have hchildren := (alike_cons_iff.1 (hsame.1 (hdump.1 h))).2.1
  exact nomatch hchildren

end RuledMarkup.Forest
