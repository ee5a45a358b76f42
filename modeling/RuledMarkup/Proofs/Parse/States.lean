import RuledMarkup.Block.Quote
import RuledMarkup.Inline.Rules
import RuledMarkup.Proofs.Parse.History

/-!
# How the state flows

The state of a parse flows down the tree and never sideways.  Whatever is parsed under a node is
parsed in the state that the rule of that node has handed down, the first child as well as those
after it, whatever states the nodes below the earlier children were parsed in.

## Main definitions

* `stateUnder` : the state handed down under a node.
* `Rule.inState` : a rule that pays no attention to the state it is given and uses another one.

## Main results

* `History.stateUnder_eq` : pending spans carry the states that were handed down.
* `step_eq_step_inState` : a step uses the state of the top span and no other one.
* `state_flows_down` : the state in which each step of a parse is made.
-/

namespace RuledMarkup

variable {R T S : Type} {rules : List (Rule R T S)} {source : String}

/-! ### States handed down -/

/-- The state handed down under a node: by the rule of the node, or at the start of the parse under
the root. -/
def stateUnder (start : S) (found : List (Match R T S)) (parent : Nat) : Option S :=
  if parent = Arena.root then some start
  else (found.find? (·.id = parent)).map (·.spec.state)

/-- A later match hands down no state under earlier nodes. -/
theorem stateUnder_append {start : S} {found : List (Match R T S)} {latest : Match R T S}
    {parent : Nat} (h : parent ≠ latest.id) :
    stateUnder start (found ++ [latest]) parent = stateUnder start found parent := by
  have hnone : [latest].find? (fun item => decide (item.id = parent)) = none := by
    simp [Ne.symm h]
  rw [stateUnder, stateUnder, List.find?_append, hnone, Option.or_none]

/-- The state handed down by the latest match. -/
theorem stateUnder_latest {start : S} {found : List (Match R T S)} {latest : Match R T S}
    (hroot : latest.id ≠ Arena.root) (hnew : ∀ item ∈ found, item.id ≠ latest.id) :
    stateUnder start (found ++ [latest]) latest.id = some latest.spec.state := by
  have hnone : found.find? (fun item => decide (item.id = latest.id)) = none := by
    simpa using hnew
  rw [stateUnder, if_neg hroot, List.find?_append, hnone]
  simp

namespace History

variable {state : S} {found : List (Match R T S)} {machine : Machine R T S}

/-- Pending spans carry the states that were handed down, and so did those that have been
matched. -/
theorem stateUnder_eq (h : History rules source state found machine) :
    (∀ item ∈ found, stateUnder state found item.parent = some item.state) ∧
      ∀ item ∈ machine.pending, stateUnder state found item.parent = some item.state := by
  induction h with
  | start =>
    refine ⟨by simp, fun item hitem => ?_⟩
    rw [Machine.start] at hitem
    dsimp only at hitem
    split_ifs at hitem
    · cases hitem
    · obtain rfl := List.mem_singleton.1 hitem
      rfl
  | @step found machine machine' latest h hmakes ih =>
    obtain ⟨hfound, hpending⟩ := ih
    obtain ⟨pending, heq, heq'⟩ := hmakes.pending_eq
    have hle : ∀ {parent}, parent ≤ machine.arena.count → parent ≠ latest.id := fun hparent => by
      rw [hmakes.id_eq]
      omega
    have hids : ∀ item ∈ found, item.id ≠ latest.id := fun item hitem =>
      hle (h.parent_lt_id item hitem).2
    -- Nothing changes under the nodes that have been there before the step.
    have hkeep : ∀ item ∈ machine.pending,
        stateUnder state (found ++ [latest]) item.parent = some item.state := fun item hitem =>
      (stateUnder_append (hle (h.parent_le item hitem))).trans (hpending item hitem)
    have hlatest : stateUnder state (found ++ [latest]) latest.parent = some latest.state :=
      hkeep latest.item (by simp [heq])
    refine ⟨List.forall_mem_append.2 ⟨fun item hitem => ?_, fun item hitem => ?_⟩, ?_⟩
    · have hparent := h.parent_lt_id item hitem
      rw [stateUnder_append (hle (by omega))]
      exact hfound item hitem
    · obtain rfl := List.mem_singleton.1 hitem
      exact hlatest
    · rw [heq']
      refine List.forall_mem_append.2 ⟨fun item hitem => ?_, fun item hitem => ?_⟩
      · rcases Pending.of_mem_following hitem with ⟨hid, hstate⟩ | ⟨hparent, hstate⟩
        · rw [hid, hstate]
          exact stateUnder_latest (by rw [hmakes.id_eq]; exact Nat.succ_ne_zero _) hids
        · rw [hparent, hstate]
          exact hlatest
      · exact hkeep item (by simp [heq, hitem])

/-- The state handed down under a node that has been matched is the one of its rule. -/
theorem stateUnder_id (h : History rules source state found machine) {item : Match R T S}
    (hitem : item ∈ found) : stateUnder state found item.id = some item.spec.state := by
  have hpos : item.id ≠ Arena.root :=
    Nat.ne_of_gt (Nat.lt_of_le_of_lt (Nat.zero_le _) (h.parent_lt_id item hitem).1)
  obtain ⟨earlier, later, rfl⟩ := List.append_of_mem hitem
  have hids := (List.pairwise_append.1 h.pairwise_id_lt).2.2
  have hnone : earlier.find? (fun other => decide (other.id = item.id)) = none := by
    rw [List.find?_eq_none]
    intro other hother
    have := hids other hother item List.mem_cons_self
    simp only [decide_eq_true_eq]
    omega
  rw [stateUnder, if_neg hpos, List.find?_append, hnone]
  simp

end History

/-! ### The state of a step -/

/-- The rule that is always tried and run in one state, whatever state it is given. -/
def Rule.inState (state : S) (rule : Rule R T S) : Rule R T S :=
  { rule with
    tryMatch := fun window last _ => rule.tryMatch window last state
    build := fun captures _ => rule.build captures state }

/-- A step uses the state of the top span and no other one. -/
theorem step_eq_step_inState {machine : Machine R T S} {item : Pending S}
    {pending : List (Pending S)} (h : machine.pending = item :: pending) :
    step rules source machine = step (rules.map (Rule.inState item.state)) source machine := by
  simp only [step, h]
  cases item.range.isEmpty with
  | true => rfl
  | false =>
    simp only [stepAt, Bool.false_eq_true, if_false]
    cases Text.slice? source item.range with
    | none => rfl
    | some window =>
      dsimp only
      rw [firstMatch_map (f := Rule.inState item.state) item.range machine.events (fun _ => rfl)
        fun _ => rfl]
      obtain ⟨events, matched⟩ := firstMatch source item.range window machine.last item.state
        machine.events rules
      cases matched <;> rfl

/-- The state flows down the tree and never sideways.  Whenever a parse has come to some machine,
the rules have been tried and run under each node in the state that the rule of that node had handed
down, or under the root in the state of the start, and the next step tries and runs them in the
state that belongs to the node of the top span. -/
theorem state_flows_down {n : Nat} {state : S} {machine : Machine R T S}
    (h : Reaches rules source n (.start source state) machine) :
    ∃ found, History rules source state found machine ∧
      (∀ item ∈ found, stateUnder state found item.parent = some item.state) ∧
      ∀ item pending, machine.pending = item :: pending →
        ∃ passed, stateUnder state found item.parent = some passed ∧
          step rules source machine =
            step (rules.map (Rule.inState passed)) source machine := by
  obtain ⟨found, hfound⟩ := exists_history h
  obtain ⟨hmatched, hpending⟩ := hfound.stateUnder_eq
  refine ⟨found, hfound, hmatched, fun item pending heq => ?_⟩
  exact ⟨item.state, hpending item (by simp [heq]), step_eq_step_inState heq⟩

/-- Quotes and plain text. -/
def quoteRules : List (Rule Unit Unit Bool) := [Block.quoteRule [], .text Inline.text]

/-- After the two pieces of a quote, the text behind it is parsed outside of a quote again. -/
theorem state_flows_down_behind_quote :
    ∃ machine, Reaches quoteRules "> a\nb c" 3 (.start "> a\nb c" false) machine ∧
      machine.pending.map (fun item => (item.parent, item.range)) = [(0, ⟨4, 7⟩)] ∧
      ∃ found, History quoteRules "> a\nb c" false found machine ∧
        (∀ item ∈ found, stateUnder false found item.parent = some item.state) ∧
        ∀ item pending, machine.pending = item :: pending →
          ∃ passed, stateUnder false found item.parent = some passed ∧
            step quoteRules "> a\nb c" machine =
              step (quoteRules.map (Rule.inState passed)) "> a\nb c" machine := by
  have hafter : ((Machine.start "> a\nb c" false : Machine Unit Unit Bool).after? quoteRules
      "> a\nb c" 3).any (fun machine =>
        machine.pending.map (fun item => (item.parent, item.range)) = [(0, ⟨4, 7⟩)]) = true := by
    decide +kernel
  obtain ⟨machine, hmachine, hpending⟩ := (Option.any_eq_true _ _).1 hafter
  have hreach := reaches_of_after? hmachine
  exact ⟨machine, hreach, of_decide_eq_true hpending, state_flows_down hreach⟩

end RuledMarkup
