import RuledMarkup.Proofs.Parse.Tiling
import RuledMarkup.Proofs.Node.PreOrder

/-!
# The kinds of the nodes of a parse

A parse puts no node into its forest that a rule has not built.  What holds of the kinds of all
nodes that the rules build holds of those of the whole forest.

## Main definitions

* `Rule.Builds` : the nodes that a rule builds are of certain kinds.

## Main results

* `kinds_of_parse` : so are all nodes of a forest.
-/

namespace RuledMarkup

variable {R T S : Type} {P : Kind R T → Prop}

/-- The nodes that the rule builds are of kinds of which `P` holds, at any depth. -/
def Rule.Builds (P : Kind R T → Prop) (rule : Rule R T S) : Prop :=
  ∀ ⦃captures state spec⦄, (rule.build captures state).value = .ok spec →
    ∀ node ∈ Forest.preOrder [spec.root], P node.kind

variable {rules : List (Rule R T S)} {source : String} {state : S}

theorem History.kinds_below {found : List (Match R T S)} {machine : Machine R T S}
    (hrules : ∀ rule ∈ rules, rule.Builds P) (h : History rules source state found machine)
    {below : Nat → List (Node R T)} (hbelow : Attached found below) (parent : Nat) :
    ∀ node ∈ Forest.preOrder (below parent), P node.kind := by
  -- The induction goes from later nodes to earlier ones, to which the later ones are attached.
  induction hlater : machine.arena.count - parent using Nat.strongRecOn generalizing parent with
  | ind later ih =>
    rw [hbelow parent, Forest.forall_mem_preOrder_iff, List.forall_mem_map]
    intro item hitem
    obtain ⟨hmem, hparent⟩ := List.mem_filter.1 hitem
    obtain rfl := of_decide_eq_true hparent
    have hids := h.parent_lt_id item hmem
    obtain ⟨-, before, after, -, hmakes⟩ := h.exists_makes_of_mem hmem
    obtain ⟨rule, hfirst, -, hbuilt⟩ := exists_rule_of_buildFirst hmakes.build_eq
    have hroot := hrules rule (mem_of_matchFirst hfirst).1 hbuilt
    rw [Forest.preOrder_cons, List.forall_mem_cons, List.forall_mem_append] at hroot
    rw [Node.children_addChildren, Forest.preOrder_append, List.forall_mem_append]
    exact ⟨hroot.1, hroot.2.1, ih _ (by omega) item.id rfl⟩

/-- The nodes of the forest of a parse are of the kinds that its rules build. -/
theorem kinds_of_parse (hrules : ∀ rule ∈ rules, rule.Builds P) {forest : List (Node R T)}
    (h : (parse rules source state).value = .ok forest) :
    ∀ node ∈ Forest.preOrder forest, P node.kind := by
  obtain ⟨n, final, hreach, hfinish, -⟩ := exists_reaches_of_run h
  obtain ⟨found, hfound⟩ := exists_history hreach
  obtain ⟨below, hroot, hbelow⟩ := hfound.exists_children
  rw [← hfinish, ← hroot]
  exact hfound.kinds_below hrules hbelow Arena.root

end RuledMarkup
