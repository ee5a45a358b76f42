import RuledMarkup.Proofs.Parse.Descent

/-!
# Runs of the parse machine

What a single step does to a machine, in terms of the first match at the top span, and what a number
of steps does.

## Main definitions

* `Reaches` : a number of steps leads from one machine to another.
* `Halts` : a machine ends, or fails, within a number of steps.

## Main results

* `step_of_error`, `step_of_misfit`, `step_of_ok` : the three things that a step can do to a span.
* `step_running_cases` : what a step that goes on has done.
* `Reaches.run_eq` : where a run ends that is long enough.
-/

namespace RuledMarkup

variable {R T S : Type} {rules : List (Rule R T S)} {source : String}

/-! ### What succeeds and what fails -/

/-- What succeeds after a change of its value has succeeded before. -/
theorem exists_of_map_eq_ok {ε α β : Type} {f : α → β} {result : Except ε α} {b : β}
    (h : result.map f = .ok b) : ∃ a, result = .ok a ∧ f a = b := by
  cases result with
  | error error => cases h
  | ok a => exact ⟨a, rfl, Except.ok.inj h⟩

/-- What fails after a change of its value has failed before. -/
theorem eq_error_of_map_eq_error {ε α β : Type} {f : α → β} {result : Except ε α} {error : ε}
    (h : result.map f = .error error) : result = .error error := by
  cases result with
  | error error' => exact congrArg _ (Except.error.inj h)
  | ok value => cases h

theorem exists_of_bind_eq_ok {ε α β : Type} {f : α → Except ε β} {result : Except ε α} {b : β}
    (h : result.bind f = .ok b) : ∃ a, result = .ok a ∧ f a = .ok b := by
  cases result with
  | error error => cases h
  | ok a => exact ⟨a, rfl, h⟩

/-! ### The first match -/

variable (rules source) in
theorem snd_firstMatch (range : Text.ByteRange) (window : String) (last : Option String)
    (state : S) (events : Array Event) :
    (firstMatch source range window last state events rules).2 =
      matchFirst rules window last state := by
  induction rules generalizing events with
  | nil => rfl
  | cons rule rules ih =>
    unfold firstMatch matchFirst
    cases hmatch : rule.tryMatch window last state with
    | none => simpa [hmatch, matchFirst] using ih _
    | some captures => simp [hmatch]

/-- Rules that are known by the same patterns and match as before find the first match as before. -/
theorem firstMatch_map {U : Type} {f : Rule R T S → Rule R U S} (range : Text.ByteRange)
    {window : String} {last : Option String} {state : S} (events : Array Event)
    (hpattern : ∀ rule, (f rule).pattern = rule.pattern)
    (hmatch : ∀ rule, (f rule).tryMatch window last state = rule.tryMatch window last state) :
    firstMatch source range window last state events (rules.map f) =
      Prod.map id (Option.map (Prod.map f id))
        (firstMatch source range window last state events rules) := by
  induction rules generalizing events with
  | nil => rfl
  | cons rule rules ih =>
    simp only [List.map_cons, firstMatch, hpattern, hmatch]
    cases rule.tryMatch window last state with
    | some captures => rfl
    | none => exact ih _

/-- The first match is a match of a rule of the list. -/
theorem mem_of_matchFirst {window : String} {last : Option String} {state : S}
    {rule : Rule R T S} {captures : Captures}
    (h : matchFirst rules window last state = some (rule, captures)) :
    rule ∈ rules ∧ rule.tryMatch window last state = some captures := by
  obtain ⟨rule', hmem, hmatch⟩ := List.exists_of_findSome?_eq_some h
  obtain ⟨captures', hmatch', heq⟩ := Option.map_eq_some_iff.1 hmatch
  cases heq
  exact ⟨hmem, hmatch'⟩

/-- There is no first match where no rule matches. -/
theorem matchFirst_eq_none_iff {window : String} {last : Option String} {state : S} :
    matchFirst rules window last state = none ↔
      ∀ rule ∈ rules, rule.tryMatch window last state = none := by
  simp [matchFirst, List.findSome?_eq_none_iff]

/-- If none of the first rules matches, then the others are tried. -/
theorem matchFirst_append_of_none {others : List (Rule R T S)} {window : String}
    {last : Option String} {state : S} (h : matchFirst rules window last state = none) :
    matchFirst (rules ++ others) window last state = matchFirst others window last state := by
  rw [matchFirst] at h
  rw [matchFirst, List.findSome?_append, h, Option.none_or, ← matchFirst]

/-- If the first rule matches, then the others are not tried. -/
theorem matchFirst_cons_of_some {rule : Rule R T S} {window : String} {last : Option String}
    {state : S} {captures : Captures} (h : rule.tryMatch window last state = some captures) :
    matchFirst (rule :: rules) window last state = some (rule, captures) := by
  simp [matchFirst, h]

/-- If the first rule does not match, then the others are tried. -/
theorem matchFirst_cons_of_none {rule : Rule R T S} {window : String} {last : Option String}
    {state : S} (h : rule.tryMatch window last state = none) :
    matchFirst (rule :: rules) window last state = matchFirst rules window last state := by
  simp [matchFirst, h]

/-- A list in which some rule matches has a first match. -/
theorem exists_matchFirst {window : String} {last : Option String} {state : S}
    (h : ∃ rule ∈ rules, (rule.tryMatch window last state).isSome = true) :
    ∃ rule captures, matchFirst rules window last state = some (rule, captures) := by
  obtain ⟨rule, hmem, hsome⟩ := h
  cases hfirst : matchFirst rules window last state with
  | some found => exact ⟨found.1, found.2, rfl⟩
  | none =>
    have := List.findSome?_eq_none_iff.1 hfirst rule hmem
    rw [Option.map_eq_none_iff.1 this] at hsome
    cases hsome

/-- Where the first match comes from, if it has built a node. -/
theorem exists_rule_of_buildFirst {offset : Nat} {window : String} {last : Option String}
    {state : S} {captures : Captures} {spec : Spec R T S}
    (h : buildFirst rules source offset window last state = .ok (captures, spec)) :
    ∃ rule, matchFirst rules window last state = some (rule, captures) ∧ 0 < captures.size ∧
      (rule.build captures state).value = .ok spec := by
  unfold buildFirst at h
  cases hfirst : matchFirst rules window last state with
  | none => simp [hfirst] at h
  | some found =>
    obtain ⟨rule, captures'⟩ := found
    simp only [hfirst] at h
    split_ifs at h with hsize
    cases hbuilt : (rule.build captures' state).value with
    | error error => simp [hbuilt, Except.map] at h
    | ok spec' =>
      simp only [hbuilt, Except.map, Except.ok.injEq, Prod.mk.injEq] at h
      obtain ⟨rfl, rfl⟩ := h
      exact ⟨rule, rfl, Nat.pos_of_ne_zero hsize, hbuilt⟩

/-- If the first rule does not match, then the others are tried. -/
theorem buildFirst_cons_of_none {rule : Rule R T S} {offset : Nat} {window : String}
    {last : Option String} {state : S} (h : rule.tryMatch window last state = none) :
    buildFirst (rule :: rules) source offset window last state =
      buildFirst rules source offset window last state := by
  simp [buildFirst, matchFirst, h]

/-- If the first rule matches, then it makes a node. -/
theorem buildFirst_cons {rule : Rule R T S} {offset : Nat} {window : String} {last : Option String}
    {state : S} {captures : Captures} {spec : Spec R T S}
    (hmatch : rule.tryMatch window last state = some captures) (hsize : 0 < captures.size)
    (hbuild : (rule.build captures state).value = .ok spec) :
    buildFirst (rule :: rules) source offset window last state = .ok (captures, spec) := by
  simp [buildFirst, matchFirst, hmatch, Nat.ne_of_gt hsize, hbuild, Except.map]

/-! ### One step -/

theorem fitsWindow_iff {window : String} {span : Text.ByteRange} :
    fitsWindow window span = true ↔
      span.start ≤ span.stop ∧ span.stop ≤ window.utf8ByteSize := by
  simp [fitsWindow]

/-- What a step at a window leads to, once the first match has been tried. -/
def Progress.ofBuilt (machine : Machine R T S) (item : Pending S) (pending : List (Pending S))
    (window : String) (events : Array Event) :
    Except ParseError (Captures × Spec R T S) → Progress R T S
  | .error error => .failed events error
  | .ok (captures, spec) =>
    if spec.span.all (fitsWindow window) then
      .running {
        pending :=
          item.following captures.size (machine.arena.count + 1) spec.state spec.span ++ pending
        arena := (machine.arena.attach item.parent spec.root).1
        last := some captures.consumed
        events }
    else .failed events (.invalidSpan ((spec.span.getD ⟨0, 0⟩).wrappingShift item.range.start))

variable (rules) in
/-- Apart from what is reported, a step depends on the first match only. -/
theorem stepAt_eq_ofBuilt (machine : Machine R T S) {item : Pending S}
    (pending : List (Pending S)) {window : String}
    (hwindow : Text.slice? source item.range = some window) :
    ∃ events, stepAt rules source machine item pending =
      .ofBuilt machine item pending window events
        (buildFirst rules source item.range.start window machine.last item.state) := by
  have hsnd := snd_firstMatch rules source item.range window machine.last item.state machine.events
  simp only [stepAt, hwindow, buildFirst]
  rw [← hsnd]
  generalize firstMatch source item.range window machine.last item.state machine.events rules =
    tried
  obtain ⟨events, found⟩ := tried
  cases found with
  | none => exact ⟨events, rfl⟩
  | some found =>
    obtain ⟨rule, captures⟩ := found
    by_cases hsize : captures.size = 0
    · simp only [hsize, ↓reduceIte]
      exact ⟨events, rfl⟩
    · simp only [hsize, ↓reduceIte]
      cases (rule.build captures item.state).value with
      | error error => exact ⟨_, rfl⟩
      | ok spec => exact ⟨_, rfl⟩

section Step

variable {machine : Machine R T S} {item : Pending S} {pending : List (Pending S)} {window : String}
  (hpending : machine.pending = item :: pending) (hrange : item.range.isEmpty = false)

include hpending hrange

theorem step_eq_stepAt : step rules source machine = stepAt rules source machine item pending := by
  simp [step, hpending, hrange]

variable (rules) in
/-- A span that cuts a character. -/
theorem step_of_slice?_eq_none (hwindow : Text.slice? source item.range = none) :
    ∃ events, step rules source machine = .failed events (.invalidSpan item.range) := by
  rw [step_eq_stepAt hpending hrange, stepAt, hwindow]
  exact ⟨_, rfl⟩

variable (hwindow : Text.slice? source item.range = some window)

include hwindow

/-- A span at which no node can be built. -/
theorem step_of_error {error : ParseError}
    (hbuild : buildFirst rules source item.range.start window machine.last item.state =
      .error error) :
    ∃ events, step rules source machine = .failed events error := by
  obtain ⟨events, hstep⟩ := stepAt_eq_ofBuilt rules machine pending hwindow
  rw [hbuild] at hstep
  exact ⟨events, (step_eq_stepAt hpending hrange).trans hstep⟩

variable {captures : Captures} {spec : Spec R T S}
  (hbuild : buildFirst rules source item.range.start window machine.last item.state =
    .ok (captures, spec))

include hbuild

/-- A span at whose start a node is built that asks for a span outside of the window. -/
theorem step_of_misfit {span : Text.ByteRange} (hspan : spec.span = some span)
    (hfits : fitsWindow window span = false) :
    ∃ events,
      step rules source machine =
        .failed events (.invalidSpan (span.wrappingShift item.range.start)) := by
  obtain ⟨events, hstep⟩ := stepAt_eq_ofBuilt rules machine pending hwindow
  refine ⟨events, (step_eq_stepAt hpending hrange).trans (hstep.trans ?_)⟩
  simp [hbuild, Progress.ofBuilt, hspan, hfits]

/-- A span at whose start a node is built, after which the parse goes on. -/
theorem step_of_ok (hfits : spec.span.all (fitsWindow window) = true) :
    ∃ events, step rules source machine = .running {
      pending :=
        item.following captures.size (machine.arena.count + 1) spec.state spec.span ++ pending
      arena := (machine.arena.attach item.parent spec.root).1
      last := some captures.consumed
      events } := by
  obtain ⟨events, hstep⟩ := stepAt_eq_ofBuilt rules machine pending hwindow
  refine ⟨events, (step_eq_stepAt hpending hrange).trans (hstep.trans ?_)⟩
  simp [hbuild, Progress.ofBuilt, hfits]

end Step

/-- What a step that goes on has done: it has built a node at the start of the top span. -/
theorem step_running_cases {machine machine' : Machine R T S}
    (h : step rules source machine = .running machine') :
    ∃ item pending window captures spec,
      machine.pending = item :: pending ∧ item.range.isEmpty = false ∧
      Text.slice? source item.range = some window ∧
      buildFirst rules source item.range.start window machine.last item.state =
        .ok (captures, spec) ∧
      spec.span.all (fitsWindow window) = true ∧
      machine'.pending = item.following captures.size (machine.arena.count + 1) spec.state
        spec.span ++ pending ∧
      machine'.arena = (machine.arena.attach item.parent spec.root).1 ∧
      machine'.last = some captures.consumed := by
  cases hpending : machine.pending with
  | nil => simp [step, hpending] at h
  | cons item pending =>
    cases hrange : item.range.isEmpty with
    | true =>
      simp only [step, hpending, hrange] at h
      split_ifs at h
    | false =>
      cases hwindow : Text.slice? source item.range with
      | none =>
        obtain ⟨events, hstep⟩ := step_of_slice?_eq_none rules hpending hrange hwindow
        cases hstep.symm.trans h
      | some window =>
        cases hbuild : buildFirst rules source item.range.start window machine.last item.state with
        | error error =>
          obtain ⟨events, hstep⟩ := step_of_error hpending hrange hwindow hbuild
          cases hstep.symm.trans h
        | ok built =>
          obtain ⟨captures, spec⟩ := built
          cases hfits : spec.span.all (fitsWindow window) with
          | true =>
            obtain ⟨events, hstep⟩ := step_of_ok hpending hrange hwindow hbuild hfits
            cases hstep.symm.trans h
            exact ⟨item, pending, window, captures, spec, rfl, hrange, hwindow, hbuild, hfits,
              rfl, rfl, rfl⟩
          | false =>
            cases hspan : spec.span with
            | none => simp [hspan] at hfits
            | some span =>
              rw [hspan, Option.all_some] at hfits
              obtain ⟨events, hstep⟩ := step_of_misfit hpending hrange hwindow hbuild hspan hfits
              cases hstep.symm.trans h

/-! ### Many steps -/

/-- A number of steps leads from one machine to another. -/
inductive Reaches (rules : List (Rule R T S)) (source : String) :
    Nat → Machine R T S → Machine R T S → Prop
  | refl (machine : Machine R T S) : Reaches rules source 0 machine machine
  | head {n : Nat} {machine middle final : Machine R T S}
      (hstep : step rules source machine = .running middle)
      (hreach : Reaches rules source n middle final) : Reaches rules source (n + 1) machine final

namespace Reaches

variable {m n : Nat} {machine middle final : Machine R T S}

theorem trans (h : Reaches rules source m machine middle)
    (h' : Reaches rules source n middle final) : Reaches rules source (m + n) machine final := by
  induction h with
  | refl => simpa using h'
  | @head m machine middle final hstep _ ih =>
    rw [Nat.succ_add]
    exact .head hstep (ih h')

/-- One step. -/
theorem single (h : step rules source machine = .running middle) :
    Reaches rules source 1 machine middle := .head h (.refl middle)

/-- What every step keeps is kept by a run. -/
theorem invariant {P : Machine R T S → Prop}
    (hkeep : ∀ {machine middle}, step rules source machine = .running middle →
      P machine → P middle)
    (h : Reaches rules source n machine final) (hstart : P machine) : P final := by
  induction h with
  | refl => exact hstart
  | head hstep _ ih => exact ih (hkeep hstep hstart)

end Reaches

/-- A machine ends, or fails, within a number of steps. -/
def Halts (rules : List (Rule R T S)) (source : String) : Nat → Machine R T S → Prop
  | 0, _ => False
  | n + 1, machine => ∀ machine', step rules source machine = .running machine' →
      Halts rules source n machine'

theorem Halts.of_reaches {n k : Nat} {machine machine' : Machine R T S}
    (h : Reaches rules source n machine machine') (hhalts : Halts rules source k machine') :
    Halts rules source (n + k) machine := by
  induction h with
  | refl => simpa using hhalts
  | @head n machine middle final hstep _ ih =>
    rw [Nat.succ_add]
    intro machine' hstep'
    cases hstep.symm.trans hstep'
    exact ih hhalts

/-- A machine that is reached on the way to the end has fewer steps to go. -/
theorem Halts.after {n k : Nat} {machine machine' : Machine R T S}
    (hhalts : Halts rules source k machine) (h : Reaches rules source n machine machine') :
    ∃ j, k = n + j ∧ Halts rules source j machine' := by
  induction h generalizing k with
  | refl => exact ⟨k, (Nat.zero_add k).symm, hhalts⟩
  | @head n machine middle final hstep _ ih =>
    cases k with
    | zero => exact hhalts.elim
    | succ k =>
      obtain ⟨j, rfl, hj⟩ := ih (hhalts middle hstep)
      exact ⟨j, by omega, hj⟩

/-- A machine that ends or fails within a number of steps comes to the machine at which it does. -/
theorem Halts.exists_reaches {bound : Nat} {machine : Machine R T S}
    (h : Halts rules source bound machine) :
    ∃ n final, Reaches rules source n machine final ∧ Halts rules source 1 final := by
  induction bound generalizing machine with
  | zero => exact h.elim
  | succ bound ih =>
    cases hstep : step rules source machine with
    | running middle =>
      obtain ⟨n, final, hreach, hlast⟩ := ih (h middle hstep)
      exact ⟨n + 1, final, .head hstep hreach, hlast⟩
    | ended final => exact ⟨0, machine, .refl _, fun _ h' => by cases hstep.symm.trans h'⟩
    | failed events error => exact ⟨0, machine, .refl _, fun _ h' => by cases hstep.symm.trans h'⟩

/-- A run goes through the machines that are reached. -/
theorem run_of_reaches {n : Nat} {machine machine' : Machine R T S}
    (h : Reaches rules source n machine machine') (k : Nat) :
    run rules source (n + k) machine = run rules source k machine' := by
  induction h with
  | refl => rw [Nat.zero_add]
  | @head n machine middle final hstep _ ih =>
    rw [Nat.succ_add, run, hstep]
    exact ih

/-- If a machine ends or fails after some steps, then every run that is long enough ends or fails
there. -/
theorem Reaches.run_eq {n : Nat} {machine final : Machine R T S}
    (h : Reaches rules source n machine final) (hlast : Halts rules source 1 final) :
    (∃ bound, Halts rules source bound machine) ∧
      ∀ bound, Halts rules source bound machine →
        run rules source bound machine = run rules source 1 final := by
  refine ⟨⟨n + 1, hlast.of_reaches h⟩, fun bound hbound => ?_⟩
  obtain ⟨j, rfl, hj⟩ := hbound.after h
  rw [run_of_reaches h]
  cases j with
  | zero => exact hj.elim
  | succ j =>
    rw [run, run]
    cases hstep : step rules source final with
    | running next => exact (hlast next hstep).elim
    | ended final' => rfl
    | failed events error => rfl

theorem halts_of_ended {machine final : Machine R T S}
    (h : step rules source machine = .ended final) : Halts rules source 1 machine :=
  fun _ hstep => by cases h.symm.trans hstep

theorem halts_of_failed {machine : Machine R T S} {events : Array Event} {error : ParseError}
    (h : step rules source machine = .failed events error) : Halts rules source 1 machine :=
  fun _ hstep => by cases h.symm.trans hstep

theorem run_of_ended {machine final : Machine R T S}
    (h : step rules source machine = .ended final) :
    (run rules source 1 machine).value = .ok final.arena.finish := by
  rw [run, h]

theorem run_of_failed {machine : Machine R T S} {events : Array Event} {error : ParseError}
    (h : step rules source machine = .failed events error) :
    (run rules source 1 machine).value = .error error := by
  rw [run, h]

end RuledMarkup
