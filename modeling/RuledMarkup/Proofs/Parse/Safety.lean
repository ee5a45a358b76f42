import RuledMarkup.Proofs.Parse.Accounts
import RuledMarkup.Proofs.Parse.Faults
import RuledMarkup.Proofs.Parse.Progress
import RuledMarkup.Proofs.Pattern.Groups

/-!
# Rules that are safe

A rule is safe if each of its matches consumes something, if the span that it asks for is a slice of
what it has consumed and shorter than that, and if it only fails where no rule matches in a text
that it has had parsed on its own.  A parse with safe rules ends, and it only fails where no rule
matches.

## Main definitions

* `ParseError.IsUnmatched` : no rule matches.
* `Spec.StaysWithin` : a span is a slice of what has been consumed, and shorter.
* `Rule.IsSafe` : the rules that are safe.
* `Rule.IsTerminal` : a rule that only builds finished nodes.

## Main results

* `Rule.Accounts.isSafe` : a rule that never fails is safe if its spans are groups with something
  around them.
* `run_eq_parse` : a parse ends.
* `isUnmatched_of_step_failed` : what a step with safe rules can fail with.
* `isUnmatched_of_parse` : what a parse with safe rules can fail with.
-/

namespace RuledMarkup

variable {R T S : Type} {rules : List (Rule R T S)} {source : String}

/-- The error says that no rule matches. -/
def ParseError.IsUnmatched (error : ParseError) : Prop :=
  ∃ offset snippet input, error = .noMatchingRule offset snippet input

/-- A span that is asked for is a slice of what has been consumed, and shorter than that. -/
def Spec.StaysWithin (spec : Spec R T S) (consumed : String) : Prop :=
  ∀ span ∈ spec.span, ∃ inner, Text.slice? consumed span = some inner ∧
    inner.utf8ByteSize < consumed.utf8ByteSize

namespace Rule

/-- Every match of the rule consumes something, and builds a node whose span stays within that,
unless no rule matches in a text that is parsed on its own. -/
def IsSafe (rule : Rule R T S) : Prop :=
  ∀ ⦃window last state captures⦄, rule.tryMatch window last state = some captures →
    captures.Over window ∧ 0 < captures.size ∧
      ((∃ spec, (rule.build captures state).value = .ok spec ∧
          spec.StaysWithin captures.consumed) ∨
        ∃ error, (rule.build captures state).value = .error error ∧ error.IsUnmatched)

/-- The rule asks for no spans. -/
def IsTerminal (rule : Rule R T S) : Prop :=
  ∀ ⦃captures state spec⦄, (rule.build captures state).value = .ok spec → spec.span = none

/-- A rule that never fails is safe if its spans are groups with something around them. -/
theorem Accounts.isSafe {account : Account R T} {rule : Rule R T S} (h : rule.Accounts account)
    (hspans : ∀ ⦃window last state captures spec⦄,
      rule.tryMatch window last state = some captures →
      (rule.build captures state).value = .ok spec → ∀ span ∈ spec.span,
        ∃ group before inner after, captures.Frames group before inner after ∧
          before ++ after ≠ [] ∧ captures.range? group = some span) : rule.IsSafe := by
  intro window last state captures hmatch
  obtain ⟨hover, hsize, spec, hbuilt, -⟩ := h hmatch
  refine ⟨hover, hsize, .inl ⟨spec, hbuilt, fun span hspan => ?_⟩⟩
  obtain ⟨group, before, inner, after, hframes, haround, hrange⟩ :=
    hspans hmatch hbuilt span hspan
  obtain rfl := Option.some.inj (hframes.range?_eq.symm.trans hrange)
  refine ⟨.ofList inner, ?_, ?_⟩
  · rw [Text.byteSize_append]
    exact Text.slice?_of_toList hframes.toList_consumed
  · rw [hover.utf8ByteSize_consumed]
    exact hframes.utf8ByteSize_lt hover haround

/-- A rule that never fails is safe if it asks for no spans. -/
theorem Accounts.isSafe_of_isTerminal {account : Account R T} {rule : Rule R T S}
    (h : rule.Accounts account) (hterminal : rule.IsTerminal) : rule.IsSafe :=
  h.isSafe fun _ _ _ _ _ _ hbuilt span hspan => by
    rw [hterminal hbuilt] at hspan
    cases hspan

/-- What a safe rule asks for is shorter than what it consumes. -/
theorem IsSafe.shortens {rule : Rule R T S} (h : rule.IsSafe) : rule.Shortens := by
  intro window last state captures hmatch
  obtain ⟨hover, -, hbuilt⟩ := h hmatch
  refine ⟨hover.size_le, fun _ spec hspec span hspan => ?_⟩
  obtain ⟨spec', hspec', hstays⟩ | ⟨error, herror, -⟩ := hbuilt
  · cases hspec.symm.trans hspec'
    obtain ⟨inner, hslice, hlt⟩ := hstays span hspan
    have hbytes := Text.utf8ByteSize_of_slice? hslice
    rw [hover.utf8ByteSize_consumed] at hlt
    omega
  · cases hspec.symm.trans herror

end Rule

/-! ### Parses -/

/-- A parse ends: a run that may take more steps than there are bytes finds what the parse finds. -/
theorem run_eq_parse (hrules : ∀ rule ∈ rules, rule.Shortens) {bound : Nat}
    (hbound : source.utf8ByteSize < bound) (state : S) :
    run rules source bound (.start source state) = parse rules source state := by
  have hhalts : Halts rules source bound (.start source state) :=
    halts_of_pendingSize_lt hrules (by rwa [pendingSize_start])
  obtain ⟨n, final, hreach, hfinal⟩ := hhalts.exists_reaches
  have hruns := (hreach.run_eq hfinal).2
  exact (hruns bound hhalts).trans (hruns _ (halts_stepsAllowed hrules source state)).symm

section Parses

variable (hrules : ∀ rule ∈ rules, rule.IsSafe) {machine : Machine R T S} {offset : Nat}
  {window : String} {span : Text.ByteRange}

include hrules

/-- A span that is asked for is a slice of the window. -/
theorem Machine.Asks.isSome_slice?_of_isSafe (h : machine.Asks rules source offset window span) :
    (Text.slice? window span).isSome = true := by
  obtain ⟨_, _, _, captures, spec, -, hbuild, hspan⟩ := h
  obtain ⟨rule, hfirst, -, hbuilt⟩ := exists_rule_of_buildFirst hbuild
  obtain ⟨hmem, hmatch⟩ := mem_of_matchFirst hfirst
  obtain ⟨hover, -, ⟨spec', hspec', hstays⟩ | ⟨error, herror, -⟩⟩ := hrules rule hmem hmatch
  · cases hbuilt.symm.trans hspec'
    obtain ⟨inner, hslice, -⟩ := hstays span hspan
    obtain ⟨rest, hsplit, -, -⟩ := hover.split
    obtain ⟨x, y, hconsumed, hrange⟩ := Text.slice?_eq_some_iff.1 hslice
    refine Option.isSome_iff_exists.2 ⟨inner, Text.slice?_eq_some_iff.2 ⟨x, y ++ rest, ?_, hrange⟩⟩
    rw [hsplit, hconsumed, String.append_assoc]
  · cases hbuilt.symm.trans herror

theorem Machine.Asks.fitsWindow_of_isSafe (h : machine.Asks rules source offset window span) :
    fitsWindow window span = true := by
  have hsome := h.isSome_slice?_of_isSafe hrules
  obtain ⟨inner, hinner⟩ := Option.isSome_iff_exists.1 hsome
  exact fitsWindow_iff.2 ⟨(Text.isSome_slice?_iff.1 hsome).1, Text.stop_le_of_slice? hinner⟩

/-- A step with safe rules only fails where no rule matches. -/
theorem isUnmatched_of_step_failed {n : Nat} {state : S} {events : Array Event} {error : ParseError}
    (hreach : Reaches rules source n (.start source state) machine)
    (h : step rules source machine = .failed events error) : error.IsUnmatched := by
  have hkeeps : ∀ rule ∈ rules, rule.KeepsToWindow := fun rule hmem _ _ _ _ hmatch =>
    (hrules rule hmem hmatch).1
  rcases step_failed_cases h with
    hfault | ⟨_, state', _, _, _, rule, captures, -, hfirst, -, hbuilt⟩
  · cases hfault with
    | cut hpending hrange hslice =>
      -- What was pending before the last step is a slice, and so is what that step has asked for.
      rcases (hreach.covered hkeeps).head hpending with
        hsome | ⟨-, before, offset, window, span, -, hstep, hasks, hspan⟩
      · simp [hslice] at hsome
      · have hsome := hasks.isSome_slice?_of_isSafe hrules
        rw [← hasks.slice?_shift (hasks.fitsWindow_of_isSafe hrules), hspan, hslice] at hsome
        cases hsome
    | unmatched hface hfirst => exact ⟨_, _, _, rfl⟩
    | empty hface hfirst hsize =>
      obtain ⟨hmem, hmatch⟩ := mem_of_matchFirst hfirst
      exact absurd hsize (Nat.ne_of_gt (hrules _ hmem hmatch).2.1)
    | misfit hface hbuild hspan hfits =>
      have hasks : machine.Asks rules source _ _ _ := ⟨_, _, _, _, _, hface, hbuild, hspan⟩
      rw [hasks.fitsWindow_of_isSafe hrules] at hfits
      cases hfits
  · obtain ⟨hmem, hmatch⟩ := mem_of_matchFirst hfirst
    obtain ⟨-, -, ⟨spec, hspec, -⟩ | ⟨error', herror, hunmatched⟩⟩ := hrules rule hmem hmatch
    · cases hspec.symm.trans hbuilt
    · cases herror.symm.trans hbuilt
      exact hunmatched

/-- A parse with safe rules only fails where no rule matches. -/
theorem isUnmatched_of_parse {state : S} {error : ParseError}
    (h : (parse rules source state).value = .error error) : error.IsUnmatched := by
  have hhalts := halts_stepsAllowed (fun rule hmem => (hrules rule hmem).shortens) source state
  obtain ⟨n, final, hreach, hfinal⟩ := hhalts.exists_reaches
  rw [parse, (hreach.run_eq hfinal).2 _ hhalts, run] at h
  cases Machine.Last.of_halts hfinal with
  | done hpending =>
    rw [step_of_pending_eq_nil rules source hpending] at h
    cases h
  | empty hempty =>
    obtain ⟨ended, hstep, -⟩ := hempty.step_eq rules source
    rw [hstep] at h
    cases h
  | failure events error' hstep =>
    rw [hstep] at h
    cases h
    exact isUnmatched_of_step_failed hrules hreach hstep

end Parses

end RuledMarkup
