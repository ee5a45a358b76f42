import RuledMarkup.Proofs.Parse.Tiling

/-!
# Errors of the loop

A step fails because a rule that it has called fails, or because the loop itself finds a fault: no
rule matches the window, the first match consumes nothing, or a span that a rule has asked for
cannot be parsed.  A span is judged in two places.  That it is in order and ends within the window
is seen when it is put on the stack, and that it cuts no character when it is taken off again, which
is in the next step.

## Main definitions

* `Machine.LoopFails`, `Machine.RuleFails` : who raises the error of a step.
* `Machine.Fault` : the faults that the loop finds, one constructor for each place.
* `Machine.Asks`, `Machine.FailsOn` : a span that a rule asks for, and on which the loop fails.
* `Machine.Covered` : what is pending are slices of the source, apart from a top span that was asked
  for last.
* `LoopErrors` : what the errors of the loop say at a machine.

## Main results

* `loopFails_iff_fault` : the loop itself fails with a fault that it finds, and with nothing else.
* `Reaches.covered` : what is pending lies in the source, and only the span that was asked for last
  may cut a character.
* `Reaches.loopErrors` : the errors of the loop are exact.
-/

namespace RuledMarkup

variable {R T S : Type} {rules : List (Rule R T S)} {source : String} {machine : Machine R T S}

/-! ### Windows -/

/-- A top span that is not empty and cuts no character is a window that the machine faces. -/
theorem Machine.facing_of_slice? {item : Pending S} {pending : List (Pending S)} {window : String}
    (hpending : machine.pending = item :: pending) (hrange : item.range.isEmpty = false)
    (hwindow : Text.slice? source item.range = some window) :
    machine.Facing source item.parent item.state item.range.start window pending := by
  have hstop := Text.utf8ByteSize_of_slice? hwindow
  obtain ⟨parent, state, start, stop⟩ := item
  obtain rfl : start + window.utf8ByteSize = stop := hstop
  refine ⟨hpending, hwindow, ?_⟩
  rintro rfl
  simp [Text.ByteRange.isEmpty] at hrange

/-- A machine faces one window only. -/
theorem Machine.Facing.unique {parent parent' : Nat} {state state' : S} {offset offset' : Nat}
    {window window' : String} {pending pending' : List (Pending S)}
    (h : machine.Facing source parent state offset window pending)
    (h' : machine.Facing source parent' state' offset' window' pending') :
    state' = state ∧ offset' = offset ∧ window' = window := by
  have hitem := (List.cons.inj (h'.pending_eq.symm.trans h.pending_eq)).1
  have hrange : (⟨offset', offset' + window'.utf8ByteSize⟩ : Text.ByteRange) =
      ⟨offset, offset + window.utf8ByteSize⟩ := congrArg Pending.range hitem
  refine ⟨congrArg Pending.state hitem, congrArg Text.ByteRange.start hrange, ?_⟩
  exact Option.some.inj (h'.slice?_eq.symm.trans (hrange ▸ h.slice?_eq))

/-! ### Who raises an error -/

/-- The step calls a rule, the first one that matches the window and consumes something, and that
rule fails. -/
def Machine.RuleFails (rules : List (Rule R T S)) (source : String) (machine : Machine R T S)
    (error : ParseError) : Prop :=
  ∃ parent state offset window pending rule captures,
    machine.Facing source parent state offset window pending ∧
    matchFirst rules window machine.last state = some (rule, captures) ∧ captures.size ≠ 0 ∧
    (rule.build captures state).value = .error error

/-- The loop itself fails: the step fails, and there is no rule that it has called and that has
failed. -/
def Machine.LoopFails (rules : List (Rule R T S)) (source : String) (machine : Machine R T S)
    (error : ParseError) : Prop :=
  (∃ events, step rules source machine = .failed events error) ∧
    ∀ error', ¬ machine.RuleFails rules source error'

/-- The faults that the loop finds in a step. -/
inductive Machine.Fault (rules : List (Rule R T S)) (source : String) (machine : Machine R T S) :
    ParseError → Prop
  /-- The top span cuts a character. -/
  | cut {item : Pending S} {pending : List (Pending S)}
      (hpending : machine.pending = item :: pending) (hrange : item.range.isEmpty = false)
      (hslice : Text.slice? source item.range = none) :
      Fault rules source machine (.invalidSpan item.range)
  /-- No rule matches the window. -/
  | unmatched {parent : Nat} {state : S} {offset : Nat} {window : String}
      {pending : List (Pending S)}
      (hface : machine.Facing source parent state offset window pending)
      (hfirst : matchFirst rules window machine.last state = none) :
      Fault rules source machine (.noMatchingRule offset window source)
  /-- The first match consumes nothing. -/
  | empty {parent : Nat} {state : S} {offset : Nat} {window : String} {pending : List (Pending S)}
      {rule : Rule R T S} {captures : Captures}
      (hface : machine.Facing source parent state offset window pending)
      (hfirst : matchFirst rules window machine.last state = some (rule, captures))
      (hsize : captures.size = 0) :
      Fault rules source machine (.emptyMatch offset rule.pattern.source)
  /-- The rule asks for a span that is reversed or leaves the window. -/
  | misfit {parent : Nat} {state : S} {offset : Nat} {window : String} {pending : List (Pending S)}
      {captures : Captures} {spec : Spec R T S} {span : Text.ByteRange}
      (hface : machine.Facing source parent state offset window pending)
      (hbuild : buildFirst rules source offset window machine.last state = .ok (captures, spec))
      (hspan : spec.span = some span) (hfits : fitsWindow window span = false) :
      Fault rules source machine (.invalidSpan (span.wrappingShift offset))

/-! ### Steps that fail -/

/-- Why no node is built at a window. -/
theorem buildFirst_error_cases {offset : Nat} {window : String} {last : Option String} {state : S}
    {error : ParseError}
    (h : buildFirst rules source offset window last state = .error error) :
    matchFirst rules window last state = none ∧ error = .noMatchingRule offset window source ∨
      ∃ rule captures, matchFirst rules window last state = some (rule, captures) ∧
        (captures.size = 0 ∧ error = .emptyMatch offset rule.pattern.source ∨
          captures.size ≠ 0 ∧ (rule.build captures state).value = .error error) := by
  unfold buildFirst at h
  cases hfirst : matchFirst rules window last state with
  | none =>
    simp only [hfirst, Except.error.injEq] at h
    exact .inl ⟨rfl, h.symm⟩
  | some found =>
    obtain ⟨rule, captures⟩ := found
    simp only [hfirst] at h
    refine .inr ⟨rule, captures, rfl, ?_⟩
    split_ifs at h with hsize
    · exact .inl ⟨hsize, (Except.error.inj h).symm⟩
    · refine .inr ⟨hsize, ?_⟩
      cases hbuilt : (rule.build captures state).value with
      | error error' =>
        rw [hbuilt] at h
        exact congrArg _ (Except.error.inj h)
      | ok spec =>
        rw [hbuilt] at h
        cases h

/-- A step fails with a fault that the loop has found, or because the rule called has failed. -/
theorem step_failed_cases {events : Array Event} {error : ParseError}
    (h : step rules source machine = .failed events error) :
    machine.Fault rules source error ∨ machine.RuleFails rules source error := by
  cases hpending : machine.pending with
  | nil => cases (step_of_pending_eq_nil rules source hpending).symm.trans h
  | cons item pending =>
    cases hrange : item.range.isEmpty with
    | true =>
      obtain ⟨ended, hended, -⟩ :=
        Machine.AtEmptySpan.step_eq rules source ⟨item, pending, hpending, hrange⟩
      cases hended.symm.trans h
    | false =>
      cases hwindow : Text.slice? source item.range with
      | none =>
        obtain ⟨events', hfailed⟩ := step_of_slice?_eq_none rules hpending hrange hwindow
        cases hfailed.symm.trans h
        exact .inl (.cut hpending hrange hwindow)
      | some window =>
        have hface := Machine.facing_of_slice? hpending hrange hwindow
        cases hbuild : buildFirst rules source item.range.start window machine.last item.state with
        | error error' =>
          obtain ⟨events', hfailed⟩ := step_of_error hpending hrange hwindow hbuild
          cases hfailed.symm.trans h
          rcases buildFirst_error_cases hbuild with
            ⟨hfirst, rfl⟩ | ⟨rule, captures, hfirst, ⟨hsize, rfl⟩ | ⟨hsize, hbuilt⟩⟩
          · exact .inl (.unmatched hface hfirst)
          · exact .inl (.empty hface hfirst hsize)
          · exact .inr ⟨_, _, _, _, _, rule, captures, hface, hfirst, hsize, hbuilt⟩
        | ok built =>
          obtain ⟨captures, spec⟩ := built
          cases hspan : spec.span with
          | none =>
            obtain ⟨events', hrunning⟩ :=
              step_of_ok hpending hrange hwindow hbuild (by simp [hspan])
            cases hrunning.symm.trans h
          | some span =>
            cases hfits : fitsWindow window span with
            | true =>
              obtain ⟨events', hrunning⟩ :=
                step_of_ok hpending hrange hwindow hbuild (by simp [hspan, hfits])
              cases hrunning.symm.trans h
            | false =>
              obtain ⟨events', hfailed⟩ :=
                step_of_misfit hpending hrange hwindow hbuild hspan hfits
              cases hfailed.symm.trans h
              exact .inl (.misfit hface hbuild hspan hfits)

/-- A window at which no node can be built. -/
theorem Machine.Facing.step_of_error {parent : Nat} {state : S} {offset : Nat} {window : String}
    {pending : List (Pending S)} (hface : machine.Facing source parent state offset window pending)
    {error : ParseError}
    (hbuild : buildFirst rules source offset window machine.last state = .error error) :
    ∃ events, step rules source machine = .failed events error :=
  RuledMarkup.step_of_error hface.pending_eq (isEmpty_range_of_ne_empty offset hface.ne_empty)
    hface.slice?_eq hbuild

theorem Machine.RuleFails.step_eq {error : ParseError}
    (h : machine.RuleFails rules source error) :
    ∃ events, step rules source machine = .failed events error := by
  obtain ⟨parent, state, offset, window, pending, rule, captures, hface, hfirst, hsize, hbuilt⟩ := h
  exact hface.step_of_error (by simp [buildFirst, hfirst, hsize, hbuilt, Except.map])

theorem Machine.Fault.step_eq {error : ParseError} (h : machine.Fault rules source error) :
    ∃ events, step rules source machine = .failed events error := by
  cases h with
  | cut hpending hrange hslice => exact step_of_slice?_eq_none rules hpending hrange hslice
  | unmatched hface hfirst => exact hface.step_of_error (by simp [buildFirst, hfirst])
  | empty hface hfirst hsize => exact hface.step_of_error (by simp [buildFirst, hfirst, hsize])
  | misfit hface hbuild hspan hfits =>
    exact step_of_misfit hface.pending_eq (isEmpty_range_of_ne_empty _ hface.ne_empty)
      hface.slice?_eq hbuild hspan hfits

/-- Where the loop finds a fault, no rule fails. -/
theorem Machine.Fault.not_ruleFails {error error' : ParseError}
    (h : machine.Fault rules source error) : ¬ machine.RuleFails rules source error' := by
  rintro ⟨parent, state, offset, window, pending, rule, captures, hface, hfirst, hsize, hbuilt⟩
  cases h with
  | cut hpending hrange hslice =>
    obtain ⟨rfl, -⟩ := List.cons.inj (hpending.symm.trans hface.pending_eq)
    cases hslice.symm.trans hface.slice?_eq
  | unmatched hface' hfirst' =>
    obtain ⟨rfl, rfl, rfl⟩ := hface.unique hface'
    cases hfirst.symm.trans hfirst'
  | empty hface' hfirst' hsize' =>
    obtain ⟨rfl, rfl, rfl⟩ := hface.unique hface'
    cases hfirst.symm.trans hfirst'
    exact hsize hsize'
  | misfit hface' hbuild =>
    obtain ⟨rfl, rfl, rfl⟩ := hface.unique hface'
    obtain ⟨rule', hfirst', -, hbuilt'⟩ := exists_rule_of_buildFirst hbuild
    cases hfirst.symm.trans hfirst'
    cases hbuilt.symm.trans hbuilt'

/-- The loop itself fails with a fault that it finds, and with nothing else. -/
theorem loopFails_iff_fault {error : ParseError} :
    machine.LoopFails rules source error ↔ machine.Fault rules source error := by
  constructor
  · rintro ⟨⟨events, hstep⟩, hrule⟩
    exact (step_failed_cases hstep).resolve_right (hrule error)
  · exact fun h => ⟨h.step_eq, fun _ => h.not_ruleFails⟩

/-- No rule matches the window. -/
theorem loopFails_noMatchingRule_iff {offset : Nat} {snippet input : String} :
    machine.LoopFails rules source (.noMatchingRule offset snippet input) ↔
      input = source ∧ ∃ parent state pending,
        machine.Facing source parent state offset snippet pending ∧
        ∀ rule ∈ rules, rule.tryMatch snippet machine.last state = none := by
  rw [loopFails_iff_fault]
  constructor
  · intro hfault
    cases hfault with
    | unmatched hface hfirst => exact ⟨rfl, _, _, _, hface, matchFirst_eq_none_iff.1 hfirst⟩
  · rintro ⟨rfl, parent, state, pending, hface, hnone⟩
    exact .unmatched hface (matchFirst_eq_none_iff.2 hnone)

/-- The first match consumes nothing. -/
theorem loopFails_emptyMatch_iff {offset : Nat} {pattern : String} :
    machine.LoopFails rules source (.emptyMatch offset pattern) ↔
      ∃ parent state window pending rule captures,
        machine.Facing source parent state offset window pending ∧
        matchFirst rules window machine.last state = some (rule, captures) ∧
        captures.size = 0 ∧ rule.pattern.source = pattern := by
  rw [loopFails_iff_fault]
  constructor
  · intro hfault
    cases hfault with
    | empty hface hfirst hsize => exact ⟨_, _, _, _, _, _, hface, hfirst, hsize, rfl⟩
  · rintro ⟨parent, state, window, pending, rule, captures, hface, hfirst, hsize, rfl⟩
    exact .empty hface hfirst hsize

/-- A rule whose node is built in another way. -/
def Rule.building (build : Rule R T S → Captures → S → Logged (Except ParseError (Spec R T S)))
    (rule : Rule R T S) : Rule R T S :=
  { rule with build := build rule }

/-- A match that consumes nothing ends the parse before its rule is called: whatever the rules
build, the step is the same, and so is what it reports. -/
theorem step_building_of_emptyMatch {offset : Nat} {pattern : String}
    (h : machine.LoopFails rules source (.emptyMatch offset pattern))
    (build : Rule R T S → Captures → S → Logged (Except ParseError (Spec R T S))) :
    step (rules.map (Rule.building build)) source machine = step rules source machine := by
  obtain ⟨parent, state, window, pending, rule, captures, hface, hfirst, hsize, -⟩ :=
    loopFails_emptyMatch_iff.1 h
  have hrange := isEmpty_range_of_ne_empty offset hface.ne_empty
  have hsnd := snd_firstMatch rules source ⟨offset, offset + window.utf8ByteSize⟩ window
    machine.last state machine.events
  rw [step_eq_stepAt hface.pending_eq hrange, step_eq_stepAt hface.pending_eq hrange]
  simp only [stepAt, hface.slice?_eq]
  rw [firstMatch_map (f := Rule.building build) _ _ (fun _ => rfl) fun _ => rfl]
  generalize firstMatch source ⟨offset, offset + window.utf8ByteSize⟩ window machine.last state
    machine.events rules = tried at hsnd
  obtain ⟨events, found⟩ := tried
  obtain rfl : found = some (rule, captures) := hsnd.trans hfirst
  simp [hsize, Rule.building]

/-! ### Spans that rules ask for -/

/-- The rule that is called at a window asks for a span of it. -/
def Machine.Asks (rules : List (Rule R T S)) (source : String) (machine : Machine R T S)
    (offset : Nat) (window : String) (span : Text.ByteRange) : Prop :=
  ∃ parent state pending captures spec,
    machine.Facing source parent state offset window pending ∧
    buildFirst rules source offset window machine.last state = .ok (captures, spec) ∧
    spec.span = some span

/-- The loop fails on the span that is asked for and reports a range: in this step, or in the next
one before a rule of that step asks for a span. -/
def Machine.FailsOn (rules : List (Rule R T S)) (source : String) (machine : Machine R T S)
    (range : Text.ByteRange) : Prop :=
  machine.LoopFails rules source (.invalidSpan range) ∨
    ∃ machine', step rules source machine = .running machine' ∧
      machine'.LoopFails rules source (.invalidSpan range) ∧
      ∀ offset window span, ¬ machine'.Asks rules source offset window span

/-- The top span cuts a character, or the rule asks for a span that is reversed or leaves the
window. -/
theorem loopFails_invalidSpan_iff {range : Text.ByteRange} :
    machine.LoopFails rules source (.invalidSpan range) ↔
      (∃ item pending, machine.pending = item :: pending ∧ item.range = range ∧
        range.isEmpty = false ∧ Text.slice? source range = none) ∨
      ∃ offset window span, machine.Asks rules source offset window span ∧
        fitsWindow window span = false ∧ span.wrappingShift offset = range := by
  rw [loopFails_iff_fault]
  constructor
  · intro hfault
    cases hfault with
    | cut hpending hrange hslice => exact .inl ⟨_, _, hpending, rfl, hrange, hslice⟩
    | misfit hface hbuild hspan hfits =>
      exact .inr ⟨_, _, _, ⟨_, _, _, _, _, hface, hbuild, hspan⟩, hfits, rfl⟩
  · rintro (⟨item, pending, hpending, rfl, hrange, hslice⟩ |
      ⟨offset, window, span, ⟨_, _, _, _, _, hface, hbuild, hspan⟩, hfits, rfl⟩)
    · exact .cut hpending hrange hslice
    · exact .misfit hface hbuild hspan hfits

namespace Machine.Asks

variable {offset : Nat} {window : String} {span : Text.ByteRange}

/-- The span that a rule asks for is put on top of the stack if it fits the window. -/
theorem exists_running (h : machine.Asks rules source offset window span)
    (hfits : fitsWindow window span = true) :
    ∃ machine' id state pending, step rules source machine = .running machine' ∧
      machine'.pending = ⟨id, state, span.shift offset⟩ :: pending := by
  obtain ⟨parent, state, pending, captures, spec, hface, hbuild, hspan⟩ := h
  obtain ⟨events, hstep⟩ := step_of_ok hface.pending_eq
    (isEmpty_range_of_ne_empty offset hface.ne_empty) hface.slice?_eq hbuild
    (by rw [hspan, Option.all_some, hfits])
  exact ⟨_, _, _, _, hstep, by rw [hspan]; rfl⟩

/-- A rule asks for one span only. -/
theorem unique {offset' : Nat} {window' : String} {span' : Text.ByteRange}
    (h : machine.Asks rules source offset window span)
    (h' : machine.Asks rules source offset' window' span') :
    offset' = offset ∧ window' = window ∧ span' = span := by
  obtain ⟨_, _, _, _, _, hface, hbuild, hspan⟩ := h
  obtain ⟨_, _, _, _, _, hface', hbuild', hspan'⟩ := h'
  obtain ⟨rfl, rfl, rfl⟩ := hface.unique hface'
  cases hbuild.symm.trans hbuild'
  exact ⟨rfl, rfl, Option.some.inj (hspan'.symm.trans hspan)⟩

/-- A span that fits its window ends within the source. -/
theorem stop_le (h : machine.Asks rules source offset window span)
    (hfits : fitsWindow window span = true) :
    (span.shift offset).stop ≤ source.utf8ByteSize := by
  obtain ⟨_, _, _, _, _, hface, -, -⟩ := h
  have hwindow : offset + window.utf8ByteSize ≤ source.utf8ByteSize :=
    Text.stop_le_of_slice? hface.slice?_eq
  have hstop := (fitsWindow_iff.1 hfits).2
  simp only [Text.ByteRange.shift]
  omega

/-- A span that fits its window is the same slice of the window and of the source. -/
theorem slice?_shift (h : machine.Asks rules source offset window span)
    (hfits : fitsWindow window span = true) :
    Text.slice? source (span.shift offset) = Text.slice? window span := by
  obtain ⟨_, _, _, _, _, hface, -, -⟩ := h
  exact Text.slice?_shift hface.slice?_eq (fitsWindow_iff.1 hfits).2

/-- The step that asks for a span fails on it if it is reversed or leaves the window. -/
theorem loopFails_iff (h : machine.Asks rules source offset window span)
    {range : Text.ByteRange} :
    machine.LoopFails rules source (.invalidSpan range) ↔
      fitsWindow window span = false ∧ span.wrappingShift offset = range := by
  rw [loopFails_invalidSpan_iff]
  constructor
  · rintro (⟨item, pending, hpending, hitem, -, hslice⟩ | ⟨_, _, _, hasks, hfits, hrange⟩)
    · -- The top span is the window, which is a slice.
      obtain ⟨_, _, _, _, _, hface, -, -⟩ := h
      obtain ⟨rfl, -⟩ := List.cons.inj (hpending.symm.trans hface.pending_eq)
      cases (hitem ▸ hslice).symm.trans hface.slice?_eq
    · obtain ⟨rfl, rfl, rfl⟩ := h.unique hasks
      exact ⟨hfits, hrange⟩
  · exact fun ⟨hfits, hrange⟩ => .inr ⟨_, _, _, h, hfits, hrange⟩

/-- The step after the one that asks for a span fails on it if it cuts a character. -/
theorem loopFails_next_iff (h : machine.Asks rules source offset window span)
    (hfits : fitsWindow window span = true) {machine' : Machine R T S}
    (hstep : step rules source machine = .running machine') {range : Text.ByteRange} :
    (machine'.LoopFails rules source (.invalidSpan range) ∧
        ∀ offset window span, ¬ machine'.Asks rules source offset window span) ↔
      span.start < span.stop ∧ Text.slice? source (span.shift offset) = none ∧
        span.shift offset = range := by
  obtain ⟨_, id, state, pending, hstep', hpending⟩ := h.exists_running hfits
  cases hstep.symm.trans hstep'
  have hempty : (span.shift offset).isEmpty = false ↔ span.start < span.stop := by
    rw [Text.ByteRange.isEmpty_eq_false_iff]
    simp [Text.ByteRange.shift]
  rw [loopFails_invalidSpan_iff, ← hempty]
  constructor
  · rintro ⟨⟨item, _, hitem, rfl, hrange, hslice⟩ | ⟨_, _, _, hasks, -, -⟩, hnone⟩
    · obtain ⟨rfl, -⟩ := List.cons.inj (hpending.symm.trans hitem)
      exact ⟨hrange, hslice, rfl⟩
    · exact absurd hasks (hnone _ _ _)
  · rintro ⟨hrange, hslice, rfl⟩
    refine ⟨.inl ⟨_, _, hpending, rfl, hrange, hslice⟩, fun offset' window' span' hasks => ?_⟩
    -- A rule is called at slices of the source only.
    obtain ⟨_, _, _, _, _, hface, -, -⟩ := hasks
    have hitem := (List.cons.inj (hpending.symm.trans hface.pending_eq)).1
    have hwindow : span.shift offset = ⟨offset', offset' + window'.utf8ByteSize⟩ :=
      congrArg Pending.range hitem
    cases (hwindow ▸ hslice).symm.trans hface.slice?_eq

/-- On which spans the loop fails, and what it reports. -/
theorem failsOn_iff (h : machine.Asks rules source offset window span) {range : Text.ByteRange} :
    machine.FailsOn rules source range ↔
      fitsWindow window span = false ∧ span.wrappingShift offset = range ∨
        fitsWindow window span = true ∧ span.start < span.stop ∧
          Text.slice? source (span.shift offset) = none ∧ span.shift offset = range := by
  rw [Machine.FailsOn, h.loopFails_iff]
  refine or_congr_right ?_
  cases hfits : fitsWindow window span with
  | false =>
    refine iff_of_false ?_ (by simp)
    rintro ⟨machine', hstep, -⟩
    obtain ⟨⟨_, hfailed⟩, -⟩ := h.loopFails_iff.2 ⟨hfits, rfl⟩
    cases hstep.symm.trans hfailed
  | true =>
    obtain ⟨machine', -, -, -, hstep, -⟩ := h.exists_running hfits
    simp only [hstep, Progress.running.injEq, exists_eq_left', h.loopFails_next_iff hfits hstep,
      true_and]

/-- The loop fails on a span that a rule asks for if the span is reversed, leaves the window, or is
not empty and cuts a character of the source. -/
theorem exists_failsOn_iff (h : machine.Asks rules source offset window span) :
    (∃ range, machine.FailsOn rules source range) ↔
      span.stop < span.start ∨ window.utf8ByteSize < span.stop ∨
        span.start < span.stop ∧ ¬ (Text.isBoundary source (span.start + offset) = true ∧
          Text.isBoundary source (span.stop + offset) = true) := by
  simp only [h.failsOn_iff, exists_or, exists_and_left, exists_eq', and_true]
  cases hfits : fitsWindow window span with
  | false =>
    rw [Bool.eq_false_iff, ne_eq, fitsWindow_iff] at hfits
    refine iff_of_true (.inl rfl) ?_
    omega
  | true =>
    obtain ⟨hle, hstop⟩ := fitsWindow_iff.1 hfits
    have hslice : Text.slice? source (span.shift offset) = none ↔
        ¬ (Text.isBoundary source (span.start + offset) = true ∧
          Text.isBoundary source (span.stop + offset) = true) := by
      rw [← Option.isNone_iff_eq_none, ← Option.not_isSome, Bool.not_eq_true', ← Bool.not_eq_true,
        Text.isSome_slice?_iff]
      simp only [Text.ByteRange.shift]
      have : span.start + offset ≤ span.stop + offset := by omega
      simp [this]
    rw [hslice]
    simp [Nat.not_lt.2 hle, Nat.not_lt.2 hstop]

/-- What is reported are the ends of the span as bytes of the source, if these are machine words. -/
theorem eq_shift_of_failsOn (h : machine.Asks rules source offset window span)
    {range : Text.ByteRange} (hfails : machine.FailsOn rules source range)
    (hstart : span.start + offset < Text.wordCount) (hstop : span.stop + offset < Text.wordCount) :
    range = span.shift offset := by
  rcases h.failsOn_iff.1 hfails with ⟨-, rfl⟩ | ⟨-, -, -, rfl⟩
  · exact Text.ByteRange.wrappingShift_eq hstart hstop
  · rfl

/-- A span that a rule asks for and on which the loop does not fail ends the parse if it is empty,
and is parsed in the next step if not. -/
theorem goes_on (h : machine.Asks rules source offset window span)
    (hfails : ∀ range, ¬ machine.FailsOn rules source range) :
    ∃ machine', step rules source machine = .running machine' ∧
      (span.start = span.stop → ∃ final, step rules source machine' = .ended final ∧
        final.arena = machine'.arena) ∧
      (span.start ≠ span.stop → ∃ id state inner pending,
        Text.slice? window span = some inner ∧
        machine'.Facing source id state (span.shift offset).start inner pending) := by
  have hfits : fitsWindow window span = true := by
    rw [← Bool.not_eq_false]
    exact fun hmisfit => hfails _ (h.failsOn_iff.2 (.inl ⟨hmisfit, rfl⟩))
  obtain ⟨machine', id, state, pending, hstep, hpending⟩ := h.exists_running hfits
  refine ⟨machine', hstep, fun hempty => ?_, fun hne => ?_⟩
  · refine Machine.AtEmptySpan.step_eq rules source ⟨_, _, hpending, ?_⟩
    rw [Text.ByteRange.isEmpty_eq_true_iff]
    simp [Text.ByteRange.shift, hempty]
  · have hlt : span.start < span.stop := by
      have := (fitsWindow_iff.1 hfits).1
      omega
    cases hslice : Text.slice? source (span.shift offset) with
    | none =>
      exact absurd (h.failsOn_iff.2 (.inr ⟨hfits, hlt, hslice, rfl⟩)) (hfails _)
    | some inner =>
      refine ⟨id, state, inner, pending, (h.slice?_shift hfits).symm.trans hslice, ?_⟩
      refine Machine.facing_of_slice? hpending ?_ hslice
      rw [Text.ByteRange.isEmpty_eq_false_iff]
      simp only [Text.ByteRange.shift]
      omega

end Machine.Asks

/-! ### What is pending -/

/-- What is left of a span is a slice of the source. -/
theorem isSome_slice?_of_mem_rest {item entry : Pending S} {window : String} {captures : Captures}
    (hover : captures.Over window) (hwindow : Text.slice? source item.range = some window)
    (h : entry ∈ item.rest captures.size) : (Text.slice? source entry.range).isSome = true := by
  rw [Pending.rest] at h
  split_ifs at h
  · cases h
  · rw [List.mem_singleton.1 h]
    exact hover.isSome_slice?_rest hwindow

/-- The last step has put a span on the stack for the rule that it has called. -/
def Machine.AskedLast (rules : List (Rule R T S)) (source : String) (state : S)
    (machine : Machine R T S) (range : Text.ByteRange) : Prop :=
  ∃ n before offset window span, Reaches rules source n (.start source state) before ∧
    step rules source before = .running machine ∧
    before.Asks rules source offset window span ∧ span.shift offset = range

/-- What is pending are slices of the source, apart from a top span that was asked for last. -/
structure Machine.Covered (rules : List (Rule R T S)) (source : String) (state : S)
    (machine : Machine R T S) : Prop where
  tail : ∀ item ∈ machine.pending.tail, (Text.slice? source item.range).isSome = true
  head : ∀ {item pending}, machine.pending = item :: pending →
    (Text.slice? source item.range).isSome = true ∨
      machine.AskedLast rules source state item.range

namespace Machine.Covered

variable {state : S} {n : Nat} {machine' : Machine R T S}

theorem of_forall (h : ∀ item ∈ machine.pending, (Text.slice? source item.range).isSome = true) :
    machine.Covered rules source state where
  tail := fun item hitem => h item (List.mem_of_mem_tail hitem)
  head := fun hpending => .inl (h _ (by simp [hpending]))

theorem start : (Machine.start source state).Covered rules source state := by
  refine of_forall fun item hitem => ?_
  rw [Machine.start] at hitem
  dsimp only at hitem
  split_ifs at hitem
  · cases hitem
  · rw [List.mem_singleton.1 hitem]
    exact Option.isSome_iff_exists.2 ⟨source, Text.slice?_self source⟩

/-- A step puts slices of the source on the stack, and the span that its rule asks for on top. -/
theorem step (hrules : ∀ rule ∈ rules, rule.KeepsToWindow)
    (hreach : Reaches rules source n (.start source state) machine)
    (hstep : RuledMarkup.step rules source machine = .running machine')
    (h : machine.Covered rules source state) : machine'.Covered rules source state := by
  obtain ⟨item, pending, window, captures, spec, hpending, hrange, hwindow, hbuild, -, hpending',
    -, -⟩ := step_running_cases hstep
  have hover := over_of_buildFirst hrules hbuild
  have htail := h.tail
  rw [hpending, List.tail_cons] at htail
  have hlater : ∀ entry ∈ item.rest captures.size ++ pending,
      (Text.slice? source entry.range).isSome = true :=
    List.forall_mem_append.2
      ⟨fun _ hentry => isSome_slice?_of_mem_rest hover hwindow hentry, htail⟩
  cases hspan : spec.span with
  | none =>
    rw [hspan, Pending.following_none] at hpending'
    exact of_forall (by rwa [hpending'])
  | some span =>
    rw [hspan, Pending.following_some, List.cons_append] at hpending'
    refine ⟨by rwa [hpending'], fun hcons => .inr ?_⟩
    obtain ⟨rfl, -⟩ := List.cons.inj (hpending'.symm.trans hcons)
    exact ⟨n, machine, _, _, span, hreach, hstep,
      ⟨_, _, _, _, _, Machine.facing_of_slice? hpending hrange hwindow, hbuild, hspan⟩, rfl⟩

/-- What is pending lies in the source. -/
theorem pending_le (h : machine.Covered rules source state) :
    ∀ item ∈ machine.pending,
      item.range.start ≤ item.range.stop ∧ item.range.stop ≤ source.utf8ByteSize := by
  have hslice : ∀ {item : Pending S}, (Text.slice? source item.range).isSome = true →
      item.range.start ≤ item.range.stop ∧ item.range.stop ≤ source.utf8ByteSize := by
    intro item hsome
    obtain ⟨window, hwindow⟩ := Option.isSome_iff_exists.1 hsome
    exact ⟨(Text.isSome_slice?_iff.1 hsome).1, Text.stop_le_of_slice? hwindow⟩
  cases hpending : machine.pending with
  | nil => simp
  | cons item pending =>
    have htail := h.tail
    rw [hpending, List.tail_cons] at htail
    refine List.forall_mem_cons.2 ⟨?_, fun entry hentry => hslice (htail entry hentry)⟩
    rcases h.head hpending with hsome | ⟨-, before, offset, window, span, -, hstep, hasks, hspan⟩
    · exact hslice hsome
    · -- The step that has asked for the span has gone on, so the span fits.
      have hfits : fitsWindow window span = true := by
        rw [← Bool.not_eq_false]
        intro hmisfit
        obtain ⟨⟨events, hfailed⟩, -⟩ := hasks.loopFails_iff.2 ⟨hmisfit, rfl⟩
        cases hstep.symm.trans hfailed
      rw [← hspan]
      refine ⟨?_, hasks.stop_le hfits⟩
      simpa [Text.ByteRange.shift] using (fitsWindow_iff.1 hfits).1

end Machine.Covered

/-- What is pending lies in the source, and only the span that was asked for last may cut a
character. -/
theorem Reaches.covered {n : Nat} {state : S} (hrules : ∀ rule ∈ rules, rule.KeepsToWindow)
    (h : Reaches rules source n (.start source state) machine) :
    machine.Covered rules source state := by
  suffices (∃ m, Reaches rules source m (.start source state) machine) ∧
      machine.Covered rules source state from this.2
  refine h.invariant (P := fun machine =>
    (∃ m, Reaches rules source m (.start source state) machine) ∧
      machine.Covered rules source state) ?_ ⟨⟨0, .refl _⟩, .start⟩
  rintro machine machine' hstep ⟨⟨m, hreach⟩, hcovered⟩
  exact ⟨⟨m + 1, hreach.trans (.single hstep)⟩, hcovered.step hrules hreach hstep⟩

/-! ### The errors of the loop -/

/-- What the errors of the loop say at a machine of a parse. -/
structure LoopErrors (rules : List (Rule R T S)) (source : String) (state : S)
    (machine : Machine R T S) : Prop where
  /-- A step that does not go on and does not end the parse fails in the rule that it has called or
  in the loop. -/
  failed : ∀ {events error}, step rules source machine = .failed events error →
    machine.RuleFails rules source error ∨ machine.LoopFails rules source error
  /-- The loop itself fails in three ways. -/
  kinds : ∀ {error}, machine.LoopFails rules source error →
    (∃ offset snippet, error = .noMatchingRule offset snippet source) ∨
      (∃ offset pattern, error = .emptyMatch offset pattern) ∨ ∃ range, error = .invalidSpan range
  /-- No rule matches the window, which is the snippet at the offset. -/
  noMatchingRule_iff : ∀ {offset snippet input},
    machine.LoopFails rules source (.noMatchingRule offset snippet input) ↔
      input = source ∧ ∃ parent state pending,
        machine.Facing source parent state offset snippet pending ∧
        ∀ rule ∈ rules, rule.tryMatch snippet machine.last state = none
  /-- The first match in the window at the offset consumes nothing. -/
  emptyMatch_iff : ∀ {offset pattern},
    machine.LoopFails rules source (.emptyMatch offset pattern) ↔
      ∃ parent state window pending rule captures,
        machine.Facing source parent state offset window pending ∧
        matchFirst rules window machine.last state = some (rule, captures) ∧
        captures.size = 0 ∧ rule.pattern.source = pattern
  /-- A match that consumes nothing is found before its rule is called. -/
  building_eq : ∀ {offset pattern},
    machine.LoopFails rules source (.emptyMatch offset pattern) → ∀ build,
      step (rules.map (Rule.building build)) source machine = step rules source machine
  /-- The loop fails on a span that a rule asks for if the span is reversed, leaves the window, or
  is not empty and cuts a character of the source. -/
  exists_failsOn_iff : ∀ {offset window span}, machine.Asks rules source offset window span →
    ((∃ range, machine.FailsOn rules source range) ↔
      span.stop < span.start ∨ window.utf8ByteSize < span.stop ∨
        span.start < span.stop ∧ ¬ (Text.isBoundary source (span.start + offset) = true ∧
          Text.isBoundary source (span.stop + offset) = true))
  /-- What is reported then are the ends of the span as bytes of the source, if these are machine
  words. -/
  eq_shift_of_failsOn : ∀ {offset window span range},
    machine.Asks rules source offset window span → machine.FailsOn rules source range →
    span.start + offset < Text.wordCount → span.stop + offset < Text.wordCount →
    range = span.shift offset
  /-- Otherwise the next step ends the parse at an empty span, or parses the slice of the window. -/
  goes_on : ∀ {offset window span}, machine.Asks rules source offset window span →
    (∀ range, ¬ machine.FailsOn rules source range) →
    ∃ machine', step rules source machine = .running machine' ∧
      (span.start = span.stop → ∃ final, step rules source machine' = .ended final ∧
        final.arena = machine'.arena) ∧
      (span.start ≠ span.stop → ∃ id state inner pending,
        Text.slice? window span = some inner ∧
        machine'.Facing source id state (span.shift offset).start inner pending)
  /-- The loop fails on no span but one that a rule has asked for in this step or in the last. -/
  asked : ∀ {range}, machine.LoopFails rules source (.invalidSpan range) →
    (∃ offset window span, machine.Asks rules source offset window span ∧
      span.wrappingShift offset = range) ∨ machine.AskedLast rules source state range
  /-- What is pending lies in the source. -/
  pending_le : ∀ item ∈ machine.pending,
    item.range.start ≤ item.range.stop ∧ item.range.stop ≤ source.utf8ByteSize
  /-- What the first match consumes is a slice of the source. -/
  slice?_consumed : ∀ {parent state offset window pending rule captures},
    machine.Facing source parent state offset window pending →
    matchFirst rules window machine.last state = some (rule, captures) →
    Text.slice? source ⟨offset, offset + captures.size⟩ = some captures.consumed

/-- The errors of the loop are exact.  Wherever a parse has come to, the loop itself fails because
no rule matches the window, because the first match in it consumes nothing, or on a span that a rule
has just asked for, in each case just when it should, and it takes no slice that leaves the
source. -/
theorem Reaches.loopErrors {n : Nat} {state : S} (hrules : ∀ rule ∈ rules, rule.KeepsToWindow)
    (h : Reaches rules source n (.start source state) machine) :
    LoopErrors rules source state machine where
  failed := fun hstep => (step_failed_cases hstep).symm.imp_right loopFails_iff_fault.2
  kinds := fun hloop => by
    cases loopFails_iff_fault.1 hloop with
    | cut => exact .inr (.inr ⟨_, rfl⟩)
    | unmatched => exact .inl ⟨_, _, rfl⟩
    | empty => exact .inr (.inl ⟨_, _, rfl⟩)
    | misfit => exact .inr (.inr ⟨_, rfl⟩)
  noMatchingRule_iff := loopFails_noMatchingRule_iff
  emptyMatch_iff := loopFails_emptyMatch_iff
  building_eq := step_building_of_emptyMatch
  exists_failsOn_iff := Machine.Asks.exists_failsOn_iff
  eq_shift_of_failsOn := fun hasks hfails => hasks.eq_shift_of_failsOn hfails
  goes_on := Machine.Asks.goes_on
  asked := by
    intro range hloop
    rcases loopFails_invalidSpan_iff.1 hloop with ⟨item, pending, hpending, rfl, -, hslice⟩ |
      ⟨offset, window, span, hasks, -, hspan⟩
    · refine .inr (((h.covered hrules).head hpending).resolve_left ?_)
      simp [hslice]
    · exact .inl ⟨offset, window, span, hasks, hspan⟩
  pending_le := (h.covered hrules).pending_le
  slice?_consumed := fun hface hfirst => by
    obtain ⟨hmem, hmatch⟩ := mem_of_matchFirst hfirst
    exact (hrules _ hmem hmatch).slice?_consumed hface.slice?_eq

/-- A rule that wants the first byte of a text to be parsed. -/
def firstByteRules : List (Rule Unit Unit Unit) :=
  [.matching Inline.text fun captures state =>
    .ok (.nonterminal (.text captures.consumed) state ⟨0, 1⟩)]

/-- The first byte of a letter that has two is asked for in the first step, and the loop fails on it
in the second. -/
theorem Reaches.loopErrors_first_byte :
    ∃ machine, Reaches firstByteRules "é" 1 (.start "é" ()) machine ∧
      machine.LoopFails firstByteRules "é" (.invalidSpan ⟨0, 1⟩) ∧
      LoopErrors firstByteRules "é" () machine := by
  have hrules : ∀ rule ∈ firstByteRules, rule.KeepsToWindow := by
    simp only [firstByteRules, List.mem_singleton, forall_eq]
    exact Rule.keepsToWindow_matching _ _
  have hafter : ((Machine.start "é" () : Machine Unit Unit Unit).after? firstByteRules "é" 1).any
      (fun machine => machine.pending.map (·.range) = [⟨0, 1⟩]) = true := by decide +kernel
  obtain ⟨machine, hmachine, hpending⟩ := (Option.any_eq_true _ _).1 hafter
  obtain ⟨item, hitem, hrange⟩ := List.map_eq_singleton_iff.1 (of_decide_eq_true hpending)
  have hreach := reaches_of_after? hmachine
  exact ⟨machine, hreach,
    loopFails_invalidSpan_iff.2 (.inl ⟨item, [], hitem, hrange, by decide, by decide +kernel⟩),
    hreach.loopErrors hrules⟩

end RuledMarkup
