import RuledMarkup.Proofs.Parse.Tiling

/-!
# The loop of a parse ends

If what the rules ask for is always shorter than what they consume, then a parse makes at most as
many steps as its source has bytes, whatever it finds.  Each of those steps attaches a node.  One
more step ends the parse: nothing is pending, the top span is empty, or something has gone wrong.

## Main definitions

* `Machine.Last` : the next step of a machine is the last one.

## Main results

* `parse_leaves_loop` : the number of steps, and of nodes, of a parse.
-/

namespace RuledMarkup

variable {R T S : Type} {rules : List (Rule R T S)} {source : String}

/-- The next step leaves the loop: nothing is pending, or the top span is empty, or the step
fails. -/
inductive Machine.Last (rules : List (Rule R T S)) (source : String) (machine : Machine R T S) :
    Prop
  | done (h : machine.pending = [])
  | empty (h : machine.AtEmptySpan)
  | failure (events : Array Event) (error : ParseError)
      (h : step rules source machine = .failed events error)

/-- A machine that does not go on is at one of the ends of the loop. -/
theorem Machine.Last.of_halts {machine : Machine R T S} (h : Halts rules source 1 machine) :
    machine.Last rules source := by
  cases hstep : step rules source machine with
  | running next => exact (h next hstep).elim
  | ended final =>
    rcases (step_ended_cases hstep).2 with hnil | hempty
    · exact .done hnil
    · exact .empty hempty
  | failed events error => exact .failure events error hstep

/-- Where a step fails, something is still pending. -/
theorem pendingSize_pos_of_failed {machine : Machine R T S} {events : Array Event}
    {error : ParseError} (h : step rules source machine = .failed events error) :
    0 < pendingSize machine.pending := by
  cases hpending : machine.pending with
  | nil => cases (step_of_pending_eq_nil rules source hpending).symm.trans h
  | cons item pending =>
    have hitem : item.range.isEmpty = false := by
      by_contra hempty
      obtain ⟨ended, hstep, -⟩ := Machine.AtEmptySpan.step_eq rules source
        ⟨item, pending, hpending, by simpa using hempty⟩
      cases hstep.symm.trans h
    rw [Text.ByteRange.isEmpty_eq_false_iff] at hitem
    rw [pendingSize_cons]
    omega

/-- Every step attaches a node. -/
theorem Reaches.length_attached {n : Nat} {machine final : Machine R T S}
    (h : Reaches rules source n machine final) :
    final.arena.attached.length = machine.arena.attached.length + n := by
  induction h with
  | refl => rfl
  | head hstep _ ih =>
    obtain ⟨item, pending, window, captures, spec, -, -, -, -, -, -, harena, -⟩ :=
      step_running_cases hstep
    rw [ih, harena, Arena.attach, List.length_cons]
    omega

/-- The loop of a parse ends.  If every match ends in its window and every span that a rule asks for
is shorter than what was consumed, then each step of a parse attaches one node, and there are at
most as many steps as the source has bytes.  They lead to a machine that leaves the loop with its
next step, and so every run that may take a step more than there are bytes ends there.  If that step
fails then a byte is still left for it, which it may have spent on a node. -/
theorem parse_leaves_loop (hrules : ∀ rule ∈ rules, rule.Shortens) (source : String) (state : S) :
    (∀ n machine, Reaches rules source n (.start source state) machine →
      machine.arena.attached.length = n ∧ n ≤ source.utf8ByteSize) ∧
    ∃ n final, Reaches rules source n (.start source state) final ∧ final.Last rules source ∧
      (∀ events error, step rules source final = .failed events error →
        n + 1 ≤ source.utf8ByteSize) ∧
      (∀ bound, source.utf8ByteSize < bound →
        run rules source bound (.start source state) = run rules source 1 final) ∧
      parse rules source state = run rules source 1 final := by
  have hused : ∀ {n machine}, Reaches rules source n (.start source state) machine →
      n + pendingSize machine.pending ≤ source.utf8ByteSize := fun hreach => by
    have := hreach.add_pendingSize_le hrules
    rwa [pendingSize_start] at this
  have hhalts : ∀ bound, source.utf8ByteSize < bound →
      Halts rules source bound (.start source state) := fun bound hbound =>
    halts_of_pendingSize_lt hrules (by rwa [pendingSize_start])
  obtain ⟨n, final, hreach, hlast⟩ := (hhalts _ (Nat.lt_succ_self _)).exists_reaches
  have hruns := (hreach.run_eq hlast).2
  refine ⟨fun m machine hm => ⟨?_, ?_⟩, n, final, hreach, .of_halts hlast,
    fun events error hstep => ?_, fun bound hbound => hruns bound (hhalts bound hbound),
    hruns _ (halts_stepsAllowed hrules source state)⟩
  · simpa [Machine.start] using hm.length_attached
  · exact Nat.le_of_add_right_le (hused hm)
  · have hbytes := hused hreach
    have hpos := pendingSize_pos_of_failed hstep
    omega

/-- The loop for a text with a bold word in it. -/
theorem parse_leaves_loop_bold :
    (∀ rule ∈ boldRules, rule.Shortens) ∧
    (∀ n machine, Reaches boldRules "a **b** c" n (.start "a **b** c" ()) machine →
      machine.arena.attached.length = n ∧ n ≤ "a **b** c".utf8ByteSize) ∧
    ∃ n final, Reaches boldRules "a **b** c" n (.start "a **b** c" ()) final ∧
      final.Last boldRules "a **b** c" ∧
      (∀ events error, step boldRules "a **b** c" final = .failed events error →
        n + 1 ≤ "a **b** c".utf8ByteSize) ∧
      (∀ bound, "a **b** c".utf8ByteSize < bound →
        run boldRules "a **b** c" bound (.start "a **b** c" ()) =
          run boldRules "a **b** c" 1 final) ∧
      parse boldRules "a **b** c" () = run boldRules "a **b** c" 1 final :=
  have hrules := shortens_of_accounts accounts_of_mem_boldRules
  ⟨hrules, parse_leaves_loop hrules _ _⟩

end RuledMarkup
