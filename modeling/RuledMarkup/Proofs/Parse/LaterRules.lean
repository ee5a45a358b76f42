import RuledMarkup.Block.Header
import RuledMarkup.Proofs.Parse.Faults

/-!
# Rules that are not needed

Rules are tried in order, so a rule at the end of the list is looked at only where none before it
matches.  A parse that never comes to such a window goes through the same machines if more rules are
put behind its own, whatever it ends in: a forest, an empty span or an error of a rule.

## Main definitions

* `Machine.Unmatched` : a machine at which the loop fails because no rule matches.
* `RunsDry` : a parse that comes to such a machine.

## Main results

* `step_append`, `run_append`, `reaches_append_iff` : steps and runs with more rules.
* `RunsDry.run_value` : what a parse that runs dry results in.
* `later_rules_change_nothing` : a parse that does not run dry is the same with more rules.
-/

namespace RuledMarkup

variable {R T S : Type} {rules : List (Rule R T S)} {source : String} {machine : Machine R T S}

/-- The loop itself fails at the machine because no rule matches. -/
def Machine.Unmatched (rules : List (Rule R T S)) (source : String) (machine : Machine R T S) :
    Prop :=
  ∃ offset snippet input, machine.LoopFails rules source (.noMatchingRule offset snippet input)

/-- A parse comes to a window that no rule matches, and has a step left to find out. -/
def RunsDry (rules : List (Rule R T S)) (source : String) (state : S) (bound : Nat) : Prop :=
  ∃ n machine, n < bound ∧ Reaches rules source n (.start source state) machine ∧
    machine.Unmatched rules source

/-- Where some rule matches, the others are not tried, and nothing is reported of them. -/
theorem firstMatch_append {range : Text.ByteRange} {window : String} {last : Option String}
    {state : S} (h : matchFirst rules window last state ≠ none) (others : List (Rule R T S))
    (events : Array Event) :
    firstMatch source range window last state events (rules ++ others) =
      firstMatch source range window last state events rules := by
  induction rules generalizing events with
  | nil => exact absurd rfl h
  | cons rule rules ih =>
    simp only [List.cons_append, firstMatch]
    cases hmatch : rule.tryMatch window last state with
    | some captures => rfl
    | none => exact ih (by simpa [matchFirst, hmatch] using h) _

/-- A step that some rule serves is the same with more rules. -/
theorem step_append (h : ¬ machine.Unmatched rules source) (others : List (Rule R T S)) :
    step (rules ++ others) source machine = step rules source machine := by
  cases hpending : machine.pending with
  | nil => simp only [step, hpending]
  | cons item pending =>
    cases hrange : item.range.isEmpty with
    | true => simp only [step, hpending, hrange, if_true]
    | false =>
      rw [step_eq_stepAt hpending hrange, step_eq_stepAt hpending hrange]
      simp only [stepAt]
      cases hwindow : Text.slice? source item.range with
      | none => rfl
      | some window =>
        have hfirst : matchFirst rules window machine.last item.state ≠ none := fun hnone =>
          h ⟨_, _, _, loopFails_iff_fault.2
            (.unmatched (Machine.facing_of_slice? hpending hrange hwindow) hnone)⟩
        simp only [firstMatch_append hfirst]

/-- A run in which some rule serves every step is the same with more rules. -/
theorem run_append {bound : Nat}
    (h : ∀ n < bound, ∀ machine', Reaches rules source n machine machine' →
      ¬ machine'.Unmatched rules source) (others : List (Rule R T S)) :
    run (rules ++ others) source bound machine = run rules source bound machine := by
  induction bound generalizing machine with
  | zero => rfl
  | succ bound ih =>
    rw [run, run, step_append (h 0 (Nat.zero_lt_succ _) machine (.refl _))]
    cases hstep : step rules source machine with
    | running middle =>
      exact ih fun n hn machine' hreach =>
        h (n + 1) (Nat.succ_lt_succ hn) machine' (.head hstep hreach)
    | ended final => rfl
    | failed events error => rfl

/-- And so are the machines that it goes through. -/
theorem reaches_append_iff {n : Nat} {final : Machine R T S}
    (h : ∀ k < n, ∀ machine', Reaches rules source k machine machine' →
      ¬ machine'.Unmatched rules source) (others : List (Rule R T S)) :
    Reaches (rules ++ others) source n machine final ↔ Reaches rules source n machine final := by
  induction n generalizing machine with
  | zero =>
    constructor <;>
    · rintro ⟨⟩
      exact .refl _
  | succ n ih =>
    have hsame := step_append (h 0 (Nat.zero_lt_succ _) machine (.refl _)) others
    have hlater : ∀ {middle}, step rules source machine = .running middle →
        (Reaches (rules ++ others) source n middle final ↔ Reaches rules source n middle final) :=
      fun hstep => ih fun k hk machine' hreach =>
        h (k + 1) (Nat.succ_lt_succ hk) machine' (.head hstep hreach)
    constructor
    · intro hreach
      cases hreach with
      | head hstep hreach =>
        rw [hsame] at hstep
        exact .head hstep ((hlater hstep).1 hreach)
    · intro hreach
      cases hreach with
      | head hstep hreach => exact .head (hsame.trans hstep) ((hlater hstep).2 hreach)

/-- A parse that runs dry fails because no rule matches. -/
theorem RunsDry.run_value {state : S} {bound : Nat} (h : RunsDry rules source state bound) :
    ∃ offset snippet, (run rules source bound (.start source state)).value =
      .error (.noMatchingRule offset snippet source) := by
  obtain ⟨n, machine, hn, hreach, offset, snippet, input, hloop⟩ := h
  obtain ⟨rfl, -⟩ := loopFails_noMatchingRule_iff.1 hloop
  obtain ⟨⟨events, hstep⟩, -⟩ := hloop
  obtain ⟨k, rfl⟩ := Nat.exists_eq_add_of_lt hn
  refine ⟨offset, snippet, ?_⟩
  rw [Nat.add_assoc, run_of_reaches hreach, run, hstep]

/-- With a rule for every window, no parse runs dry. -/
theorem not_runsDry_of_catches (hcatch : Catches rules) (source : String) (state : S)
    (bound : Nat) : ¬ RunsDry rules source state bound := by
  rintro ⟨n, machine, -, -, offset, snippet, input, hloop⟩
  obtain ⟨-, parent, state, pending, hface, hnone⟩ := loopFails_noMatchingRule_iff.1 hloop
  obtain ⟨rule, hrule, hsome⟩ := hcatch machine.last state hface.ne_empty
  rw [hnone rule hrule] at hsome
  cases hsome

/-- Later rules change nothing about a parse that does without them, whatever number of steps it may
take; `parse` may take `stepsAllowed`.  If the loop never fails for want of a rule, then with more
rules behind its own it has the same result and the same reports, and goes through the same
machines, with the same stacks, nodes and last captures. -/
theorem later_rules_change_nothing {state : S} {bound : Nat}
    (h : ¬ RunsDry rules source state bound) (others : List (Rule R T S)) :
    run (rules ++ others) source bound (.start source state) =
        run rules source bound (.start source state) ∧
      ∀ n ≤ bound, ∀ machine,
        Reaches (rules ++ others) source n (.start source state) machine ↔
          Reaches rules source n (.start source state) machine := by
  have hserved : ∀ n < bound, ∀ machine,
      Reaches rules source n (.start source state) machine → ¬ machine.Unmatched rules source :=
    fun n hn machine hreach hunmatched => h ⟨n, machine, hn, hreach, hunmatched⟩
  exact ⟨run_append hserved others, fun n hn machine =>
    reaches_append_iff (fun k hk => hserved k (Nat.lt_of_lt_of_le hk hn)) others⟩

/-- Headers whose titles cannot be parsed, and plain text. -/
def untitledRules : List (Rule Unit Unit Unit) :=
  [Block.classedHeaderRule ⟨fun _ => (), fun _ => []⟩ (fun _ => none) [], Inline.textRule]

/-- The parse of a title runs dry, but not that of the document that the title is in: a rule for
titles that comes later is not asked. -/
theorem later_rules_change_nothing_after_rule_error :
    ¬ RunsDry untitledRules "T\n===" () (stepsAllowed "T\n===") ∧
      (parse untitledRules "T\n===" ()).value = .error (.noMatchingRule 0 "T" "T") ∧
      parse (untitledRules ++ [Block.underlinedHeaderRule ⟨fun _ => (), fun _ => []⟩]) "T\n===" () =
        parse untitledRules "T\n===" () := by
  have hcatch : Catches untitledRules := Inline.catches_of_mem (by simp [untitledRules])
  have hdry := not_runsDry_of_catches hcatch "T\n===" () (stepsAllowed "T\n===")
  have herror : (parse untitledRules "T\n===" ()).value.map (fun _ => ()) =
      .error (.noMatchingRule 0 "T" "T") := by decide +kernel
  exact ⟨hdry, eq_error_of_map_eq_error herror, (later_rules_change_nothing hdry _).1⟩

end RuledMarkup
