import RuledMarkup.Block.ListItem
import RuledMarkup.Inline.Rules
import RuledMarkup.Proofs.Parse.Storage
import RuledMarkup.Proofs.Parse.Runs
import RuledMarkup.Proofs.Pattern.Consumed

/-!
# The parse machine and recursive descent

The parse machine keeps a stack of spans and numbers its nodes; a descent has neither.  Both find
the same.  While a descent goes through a window, the machine works off the span of that window and
whatever is put on top of it, and leaves the rest of the stack alone; the nodes that it attaches on
the way amount to the forest of the descent.

## Main definitions

* `Arena.Extends` : an arena has grown by a forest under a node.
* `Outcome.Reached` : the machine comes to the outcome of a descent.

## Main results

* `reached_of_descend` : the machine comes to the outcome of every descent.
* `exists_descend_of_halts` : where the machine ends, the descent has an outcome.
* `run_value_eq_iff_descent` : a run that ends has the result of the descent.
-/

namespace RuledMarkup

variable {R T S : Type} {rules : List (Rule R T S)} {source : String}

/-! ### Growing arenas -/

namespace Arena

/-- The second arena is the first one with a forest attached to the node `parent`. -/
def Extends (arena : Arena R T) (parent : Nat) (forest : List (Node R T)) (arena' : Arena R T) :
    Prop :=
  ∃ made, Grown (arena.count + 1) parent made forest ∧
    arena'.attached = made.reverse ++ arena.attached ∧ arena'.count = arena.count + made.length

namespace Extends

variable {arena middle arena' : Arena R T} {parent : Nat} {root : Node R T}
  {below forest : List (Node R T)}

theorem refl (arena : Arena R T) (parent : Nat) : arena.Extends parent [] arena :=
  ⟨[], .nil _ _, rfl, rfl⟩

/-- A node is attached, then what belongs below it, and then its later siblings. -/
theorem node
    (hbelow : (arena.attach parent root).1.Extends (arena.count + 1) below middle)
    (hlater : middle.Extends parent forest arena') :
    arena.Extends parent (root.addChildren below :: forest) arena' := by
  obtain ⟨inner, hinner, hattached, hcount⟩ := hbelow
  obtain ⟨later, hgrown, hattached', hcount'⟩ := hlater
  simp only [attach] at hinner hattached hcount
  rw [hcount] at hgrown
  refine ⟨⟨arena.count + 1, parent, root⟩ :: inner ++ later, .node hinner ?_, ?_, ?_⟩
  · convert hgrown using 1
    omega
  · rw [hattached', hattached]
    simp
  · rw [hcount', hcount]
    simp only [List.cons_append, List.length_cons, List.length_append]
    omega

/-- An arena that has grown from nothing is finished to what it has grown by. -/
theorem finish_eq (h : ({} : Arena R T).Extends Arena.root forest arena') :
    arena'.finish = forest := by
  obtain ⟨made, hgrown, hattached, -⟩ := h
  exact finish_of_grown (by simpa using hattached) hgrown

end Extends

end Arena

/-! ### The stack -/

/-- What is left of a span after its first `size` bytes, if anything is. -/
def Pending.rest (item : Pending S) (size : Nat) : List (Pending S) :=
  let middle := item.range.start + size
  if middle = item.range.stop then [] else [{ item with range := ⟨middle, item.range.stop⟩ }]

theorem Pending.following_none (item : Pending S) (size id : Nat) (state : S) :
    item.following size id state none = item.rest size := rfl

theorem Pending.following_some (item : Pending S) (size id : Nat) (state : S)
    (span : Text.ByteRange) :
    item.following size id state (some span) =
      ⟨id, state, span.shift item.range.start⟩ :: item.rest size := rfl

/-- A machine whose top span is empty. -/
def Machine.AtEmptySpan (machine : Machine R T S) : Prop :=
  ∃ item pending, machine.pending = item :: pending ∧ item.range.isEmpty = true

variable (rules source) in
theorem Machine.AtEmptySpan.step_eq {machine : Machine R T S} (h : machine.AtEmptySpan) :
    ∃ machine', step rules source machine = .ended machine' ∧ machine'.arena = machine.arena := by
  obtain ⟨item, pending, hpending, hrange⟩ := h
  simp only [step, hpending, hrange, if_true]
  split
  · exact ⟨machine, rfl, rfl⟩
  · exact ⟨_, rfl, rfl⟩

variable (rules source) in
theorem step_of_pending_eq_nil {machine : Machine R T S} (h : machine.pending = []) :
    step rules source machine = .ended machine := by
  simp [step, h]

/-- The range of a window that is not empty. -/
theorem isEmpty_range_of_ne_empty (offset : Nat) {window : String} (h : window ≠ "") :
    (⟨offset, offset + window.utf8ByteSize⟩ : Text.ByteRange).isEmpty = false := by
  have : window.utf8ByteSize ≠ 0 := fun hzero => h (String.utf8ByteSize_eq_zero_iff.1 hzero)
  rw [Text.ByteRange.isEmpty_eq_false_iff]
  simp only
  omega

/-- The machine is about to parse a window of the source that is not empty. -/
structure Machine.Facing (source : String) (machine : Machine R T S) (parent : Nat) (state : S)
    (offset : Nat) (window : String) (pending : List (Pending S)) : Prop where
  pending_eq : machine.pending =
    ⟨parent, state, ⟨offset, offset + window.utf8ByteSize⟩⟩ :: pending
  slice?_eq : Text.slice? source ⟨offset, offset + window.utf8ByteSize⟩ = some window
  ne_empty : window ≠ ""

/-- The machine comes to the outcome of a descent through the top span: it works off that span, with
`pending` below it, and attaches what the descent finds to `parent`. -/
def Outcome.Reached (rules : List (Rule R T S)) (source : String) (machine : Machine R T S)
    (parent : Nat) (pending : List (Pending S)) : Outcome R T → Prop
  | whole forest last => ∃ n machine', Reaches rules source n machine machine' ∧
      machine'.pending = pending ∧ machine'.last = last ∧
      machine.arena.Extends parent forest machine'.arena
  | stopped forest => ∃ n machine', Reaches rules source n machine machine' ∧
      machine'.AtEmptySpan ∧ machine.arena.Extends parent forest machine'.arena
  | failed error => ∃ n machine' events, Reaches rules source n machine machine' ∧
      step rules source machine' = .failed events error

/-- The machine comes to every outcome of a descent. -/
def Descent.Simulated (rules : List (Rule R T S)) (source : String) (go : Descent R T S) : Prop :=
  ∀ {offset window last state outcome machine parent pending},
    go offset window last state = some outcome →
    machine.Facing source parent state offset window pending → machine.last = last →
    outcome.Reached rules source machine parent pending

/-! ### From descents to runs -/

section Simulation

variable {go : Descent R T S} {machine : Machine R T S} {parent : Nat} {state : S} {offset : Nat}
  {window : String} {pending : List (Pending S)} {captures : Captures}

/-- If there is nothing left of a window, its span leaves nothing on the stack; otherwise the rest
of the window is what the machine faces next. -/
theorem Machine.Facing.rest (hface : machine.Facing source parent state offset window pending)
    (hover : captures.Over window) {machine' : Machine R T S}
    (hpending : machine'.pending =
      (⟨parent, state, ⟨offset, offset + window.utf8ByteSize⟩⟩ : Pending S).rest captures.size ++
        pending) {rest : String}
    (hrest : Text.slice window ⟨captures.size, window.utf8ByteSize⟩ = rest) :
    (rest = "" → machine'.pending = pending) ∧
      (rest ≠ "" → machine'.Facing source parent state (offset + captures.size) rest pending) := by
  obtain ⟨rest', hwindow, hsize, hslice⟩ := hover.split
  obtain rfl : rest' = rest := (Text.slice_of_slice? hslice).symm.trans hrest
  have hbytes : window.utf8ByteSize = captures.size + rest'.utf8ByteSize := by
    rw [← hsize, ← String.utf8ByteSize_append, ← hwindow]
  constructor
  · rintro rfl
    rw [hpending, Pending.rest]
    simp [hbytes]
  · intro hne
    have hpos : rest'.utf8ByteSize ≠ 0 := fun hzero =>
      hne (String.utf8ByteSize_eq_zero_iff.1 hzero)
    refine ⟨?_, ?_, hne⟩
    · rw [hpending, Pending.rest, if_neg (by simp only; omega)]
      simp [hbytes, Nat.add_assoc]
    · have hle : (⟨captures.size, window.utf8ByteSize⟩ : Text.ByteRange).stop ≤
          window.utf8ByteSize := Nat.le_refl _
      have hshift := Text.slice?_shift hface.slice?_eq hle
      rw [hslice] at hshift
      rw [← hshift]
      simp [Text.ByteRange.shift, hbytes, Nat.add_comm, Nat.add_left_comm]

/-- The machine goes on with the rest of a window as the descent does. -/
theorem reached_of_descendRest (hgo : go.Simulated rules source)
    (hface : machine.Facing source parent state offset window pending)
    (hover : captures.Over window) {machine' : Machine R T S}
    (hpending : machine'.pending =
      (⟨parent, state, ⟨offset, offset + window.utf8ByteSize⟩⟩ : Pending S).rest captures.size ++
        pending) {outcome : Outcome R T}
    (h : descendRest go offset captures.size window state machine'.last = some outcome) :
    outcome.Reached rules source machine' parent pending := by
  obtain ⟨hnil, hcons⟩ := hface.rest hover hpending rfl
  unfold descendRest at h
  dsimp only at h
  split_ifs at h with hempty
  · obtain rfl := Option.some.inj h
    exact ⟨0, machine', .refl _, hnil (String.isEmpty_iff.1 hempty), rfl, .refl _ _⟩
  · exact hgo h (hcons fun heq => hempty (String.isEmpty_iff.2 heq)) rfl

/-- What comes to the outcome for the rest of a window has come to the outcome for the whole of
it. -/
theorem Outcome.Reached.withFirst {n : Nat} {machine' : Machine R T S} {root : Node R T}
    {below : List (Node R T)} (hreach : Reaches rules source n machine machine')
    (hbelow : (machine.arena.attach parent root).1.Extends (machine.arena.count + 1) below
      machine'.arena)
    {outcome : Outcome R T} (h : outcome.Reached rules source machine' parent pending) :
    (outcome.withFirst (root.addChildren below)).Reached rules source machine parent pending := by
  cases outcome with
  | whole forest last =>
    obtain ⟨m, final, hfinal, hpending, hlast, hgrown⟩ := h
    exact ⟨n + m, final, hreach.trans hfinal, hpending, hlast, hbelow.node hgrown⟩
  | stopped forest =>
    obtain ⟨m, final, hfinal, hempty, hgrown⟩ := h
    exact ⟨n + m, final, hreach.trans hfinal, hempty, hbelow.node hgrown⟩
  | failed error =>
    obtain ⟨m, final, events, hfinal, hstep⟩ := h
    exact ⟨n + m, final, events, hreach.trans hfinal, hstep⟩

variable {spec : Spec R T S}

/-- After a node has been built whose rule asks for a span of its window, that span is on top of the
stack. -/
theorem Machine.Facing.onSpan (hface : machine.Facing source parent state offset window pending)
    (hbuild : buildFirst rules source offset window machine.last state = .ok (captures, spec))
    {span : Text.ByteRange} (hspan : spec.span = some span)
    (hfits : fitsWindow window span = true) :
    ∃ middle, step rules source machine = .running middle ∧
      middle.arena = (machine.arena.attach parent spec.root).1 ∧
      middle.last = some captures.consumed ∧
      middle.pending = ⟨machine.arena.count + 1, spec.state, span.shift offset⟩ ::
        ((⟨parent, state, ⟨offset, offset + window.utf8ByteSize⟩⟩ : Pending S).rest
          captures.size ++ pending) := by
  have hall : spec.span.all (fitsWindow window) = true := by
    rw [hspan, Option.all_some, hfits]
  obtain ⟨events, hstep⟩ := step_of_ok hface.pending_eq
    (isEmpty_range_of_ne_empty offset hface.ne_empty) hface.slice?_eq hbuild hall
  rw [hspan, Pending.following_some] at hstep
  exact ⟨_, hstep, rfl, rfl, rfl⟩

/-- After a node has been built whose rule asks for a window, the machine faces that window. -/
theorem Machine.Facing.inner (hface : machine.Facing source parent state offset window pending)
    (hbuild : buildFirst rules source offset window machine.last state = .ok (captures, spec))
    {span : Text.ByteRange} (hspan : spec.span = some span) (hne : span.start ≠ span.stop)
    {text : String} (hslice : Text.slice? window span = some text) :
    ∃ middle, step rules source machine = .running middle ∧
      middle.arena = (machine.arena.attach parent spec.root).1 ∧
      middle.last = some captures.consumed ∧
      middle.Facing source (machine.arena.count + 1) spec.state (offset + span.start) text
        ((⟨parent, state, ⟨offset, offset + window.utf8ByteSize⟩⟩ : Pending S).rest
          captures.size ++ pending) := by
  have hbytes := Text.utf8ByteSize_of_slice? hslice
  have hle := Text.stop_le_of_slice? hslice
  have hfits : fitsWindow window span = true := by
    simp only [fitsWindow, Bool.and_eq_true, decide_eq_true_eq]
    omega
  obtain ⟨middle, hstep, harena, hlast, hpending⟩ := hface.onSpan hbuild hspan hfits
  have hshifted : span.shift offset =
      ⟨offset + span.start, offset + span.start + text.utf8ByteSize⟩ := by
    simp only [Text.ByteRange.shift, Text.ByteRange.mk.injEq]
    omega
  refine ⟨middle, hstep, harena, hlast, hshifted ▸ hpending, ?_, ?_⟩
  · rw [← hshifted]
    exact (Text.slice?_shift hface.slice?_eq hle).trans hslice
  · rintro rfl
    simp only [String.utf8ByteSize_empty] at hbytes
    omega

/-- After a node has been built, the machine fails because of the span that its rule asks for, or
it goes on and comes to what a descent finds in that span. -/
theorem reached_of_descendInner (hgo : go.Simulated rules source)
    (hface : machine.Facing source parent state offset window pending)
    (hbuild : buildFirst rules source offset window machine.last state = .ok (captures, spec))
    {inner : Outcome R T}
    (h : spec.descendInner go offset window captures.consumed = some inner) :
    (∃ error events, inner = .failed error ∧ step rules source machine = .failed events error) ∨
      ∃ middle, step rules source machine = .running middle ∧
        middle.arena = (machine.arena.attach parent spec.root).1 ∧
        inner.Reached rules source middle (machine.arena.count + 1)
          ((⟨parent, state, ⟨offset, offset + window.utf8ByteSize⟩⟩ : Pending S).rest
            captures.size ++ pending) := by
  have hrange := isEmpty_range_of_ne_empty offset hface.ne_empty
  cases hspan : spec.span with
  | none =>
    obtain ⟨events, hstep⟩ := step_of_ok hface.pending_eq hrange hface.slice?_eq hbuild
      (by rw [hspan]; rfl)
    simp only [Spec.descendInner, hspan, Option.some.injEq] at h
    subst h
    refine .inr ⟨_, hstep, rfl, 0, _, .refl _, ?_, rfl, .refl _ _⟩
    rw [hspan, Pending.following_none]
  | some span =>
    simp only [Spec.descendInner, hspan] at h
    split_ifs at h with hmisfit hempty
    · obtain rfl := Option.some.inj h
      have hfits : fitsWindow window span = false := by
        simp only [fitsWindow, Bool.and_eq_false_iff, decide_eq_false_iff_not]
        omega
      obtain ⟨events, hstep⟩ :=
        step_of_misfit hface.pending_eq hrange hface.slice?_eq hbuild hspan hfits
      exact .inl ⟨_, events, rfl, hstep⟩
    all_goals
      have hfits : fitsWindow window span = true := by
        simp only [fitsWindow, Bool.and_eq_true, decide_eq_true_eq]
        omega
      obtain ⟨middle, hstep, harena, -, hpending⟩ := hface.onSpan hbuild hspan hfits
    · obtain rfl := Option.some.inj h
      have hempty' : (span.shift offset).isEmpty = true := by
        simp [Text.ByteRange.isEmpty, Text.ByteRange.shift, hempty]
      exact .inr ⟨middle, hstep, harena, 0, middle, .refl _, ⟨_, _, hpending, hempty'⟩, .refl _ _⟩
    · cases hslice : Text.slice? window span with
      | none =>
        simp only [hslice, Option.some.injEq] at h
        subst h
        have hnonempty : (span.shift offset).isEmpty = false := by
          rw [Text.ByteRange.isEmpty_eq_false_iff]
          simp only [Text.ByteRange.shift]
          omega
        obtain ⟨events, hfail⟩ := step_of_slice?_eq_none rules hpending hnonempty
          ((Text.slice?_shift hface.slice?_eq (by omega)).trans hslice)
        exact .inr ⟨middle, hstep, harena, 0, middle, events, .refl _, hfail⟩
      | some text =>
        simp only [hslice] at h
        obtain ⟨inside, hinside, harena', hlast, hinner⟩ := hface.inner hbuild hspan hempty hslice
        exact .inr ⟨inside, hinside, harena', hgo h hinner hlast⟩

/-- What a descent finds in the span of a rule and after it, the machine comes to as well. -/
theorem reached_of_under (hgo : go.Simulated rules source)
    (hface : machine.Facing source parent state offset window pending)
    (hbuild : buildFirst rules source offset window machine.last state = .ok (captures, spec))
    (hover : captures.Over window) {inner outcome : Outcome R T}
    (hinner : spec.descendInner go offset window captures.consumed = some inner)
    (h : inner.under spec.root (descendRest go offset captures.size window state) =
      some outcome) :
    outcome.Reached rules source machine parent pending := by
  rcases reached_of_descendInner hgo hface hbuild hinner with
    ⟨error, events, rfl, hfail⟩ | ⟨middle, hstep, harena, hreached⟩
  · obtain rfl := Option.some.inj h
    exact ⟨0, machine, events, .refl _, hfail⟩
  · cases inner with
    | failed error =>
      obtain rfl := Option.some.inj h
      obtain ⟨n, machine', events, hreach, hfail⟩ := hreached
      exact ⟨n + 1, machine', events, .head hstep hreach, hfail⟩
    | stopped below =>
      obtain rfl := Option.some.inj h
      obtain ⟨n, machine', hreach, hempty, hbelow⟩ := hreached
      exact ⟨n + 1, machine', .head hstep hreach, hempty, (harena ▸ hbelow).node (.refl _ _)⟩
    | whole below last =>
      obtain ⟨n, machine', hreach, hpending, rfl, hbelow⟩ := hreached
      obtain ⟨rest, hrest, rfl⟩ := Option.map_eq_some_iff.1 h
      exact Outcome.Reached.withFirst (.head hstep hreach) (harena ▸ hbelow)
        (reached_of_descendRest hgo hface hover hpending hrest)

end Simulation

variable (hrules : ∀ rule ∈ rules, rule.KeepsToWindow)

include hrules in
theorem over_of_buildFirst {offset : Nat} {window : String} {last : Option String} {state : S}
    {captures : Captures} {spec : Spec R T S}
    (h : buildFirst rules source offset window last state = .ok (captures, spec)) :
    captures.Over window := by
  obtain ⟨rule, hfirst, -, -⟩ := exists_rule_of_buildFirst h
  obtain ⟨hmem, hmatch⟩ := mem_of_matchFirst hfirst
  exact hrules rule hmem hmatch

include hrules in
/-- The machine comes to the outcome of every descent. -/
theorem reached_of_descend (depth : Nat) : (descend rules source depth).Simulated rules source := by
  induction depth with
  | zero =>
    intro _ _ _ _ _ _ _ _ h
    cases h
  | succ depth ih =>
    intro offset window last state outcome machine parent pending h hface hlast
    subst hlast
    cases hbuild : buildFirst rules source offset window machine.last state with
    | error error =>
      obtain rfl := Option.some.inj ((descend_of_error hbuild depth).symm.trans h)
      obtain ⟨events, hfail⟩ := step_of_error hface.pending_eq
        (isEmpty_range_of_ne_empty offset hface.ne_empty) hface.slice?_eq hbuild
      exact ⟨0, machine, events, .refl _, hfail⟩
    | ok built =>
      rw [descend_of_ok hbuild] at h
      obtain ⟨inner, hinner, hunder⟩ := Option.bind_eq_some_iff.1 h
      exact reached_of_under ih hface hbuild (over_of_buildFirst hrules hbuild) hinner hunder

/-! ### From runs to descents -/

/-- If there is a descent through every window that the machine may face after a node has been
built, then there is one into the span of its rule. -/
theorem exists_descendInner {machine : Machine R T S} {parent : Nat} {state : S} {offset : Nat}
    {window : String} {pending : List (Pending S)} {captures : Captures} {spec : Spec R T S}
    (hface : machine.Facing source parent state offset window pending)
    (hbuild : buildFirst rules source offset window machine.last state = .ok (captures, spec))
    (hnext : ∀ {middle id state offset window pending},
      step rules source machine = .running middle →
      middle.Facing source id state offset window pending →
      ∃ depth outcome,
        descend rules source depth offset window middle.last state = some outcome) :
    ∃ depth inner,
      spec.descendInner (descend rules source depth) offset window captures.consumed =
        some inner := by
  unfold Spec.descendInner
  cases hspan : spec.span with
  | none => exact ⟨0, _, rfl⟩
  | some span =>
    simp only
    split_ifs with hmisfit hempty
    · exact ⟨0, _, rfl⟩
    · exact ⟨0, _, rfl⟩
    · cases hslice : Text.slice? window span with
      | none => exact ⟨0, _, rfl⟩
      | some text =>
        obtain ⟨middle, hstep, -, hlast, hinner⟩ := hface.inner hbuild hspan hempty hslice
        obtain ⟨depth, outcome, houtcome⟩ := hnext hstep hinner
        exact ⟨depth, outcome, hlast ▸ houtcome⟩

include hrules in
/-- Where the machine ends, the descent has an outcome.  The induction is on the number of steps:
the span of a rule takes some of them, and what is left of the window has fewer. -/
theorem exists_descend_of_halts {k : Nat} {machine : Machine R T S}
    (hhalts : Halts rules source k machine) {parent : Nat} {state : S} {offset : Nat}
    {window : String} {pending : List (Pending S)}
    (hface : machine.Facing source parent state offset window pending) :
    ∃ depth outcome,
      descend rules source depth offset window machine.last state = some outcome := by
  induction k using Nat.strongRecOn generalizing machine parent state offset window pending with
  | ind k ih =>
    cases hbuild : buildFirst rules source offset window machine.last state with
    | error error => exact ⟨1, _, descend_of_error hbuild 0⟩
    | ok built =>
      obtain ⟨captures, spec⟩ := built
      have hover := over_of_buildFirst hrules hbuild
      obtain ⟨depth, inner, hinner⟩ := exists_descendInner hface hbuild fun hstep hnext => by
        obtain ⟨j, rfl, hj⟩ := hhalts.after (.single hstep)
        exact ih j (by omega) hj hnext
      -- The span and the rest need depths of their own; the greater one does for both.
      suffices h : ∃ depth outcome, inner.under spec.root
          (descendRest (descend rules source depth) offset captures.size window state) =
            some outcome by
        obtain ⟨depth', outcome, hunder⟩ := h
        refine ⟨max depth depth' + 1, outcome, ?_⟩
        rw [descend_of_ok hbuild]
        exact Option.bind_eq_some_iff.2 ⟨inner,
          Spec.descendInner_mono (descend_mono (Nat.le_max_left _ _)) hinner,
          Outcome.under_mono (descendRest_mono (descend_mono (Nat.le_max_right _ _))) hunder⟩
      cases inner with
      | failed error => exact ⟨0, _, rfl⟩
      | stopped below => exact ⟨0, _, rfl⟩
      | whole below last =>
        rcases reached_of_descendInner (reached_of_descend hrules depth) hface hbuild hinner with
          ⟨error, events, heq, -⟩ | ⟨middle, hstep, -, n, machine', hreach, hpending, rfl, -⟩
        · cases heq
        obtain ⟨hnil, hcons⟩ := hface.rest hover hpending rfl
        by_cases hrest : Text.slice window ⟨captures.size, window.utf8ByteSize⟩ = ""
        · refine ⟨0, .whole [spec.root.addChildren below] machine'.last, ?_⟩
          simp [Outcome.under, descendRest, hrest, Outcome.withFirst]
        · -- The rest is faced once the span has been worked off, which has taken a step at least.
          obtain ⟨j, rfl, hj⟩ := hhalts.after (.head hstep hreach)
          obtain ⟨depth', outcome, houtcome⟩ := ih j (by omega) hj (hcons hrest)
          refine ⟨depth', outcome.withFirst (spec.root.addChildren below), ?_⟩
          simp [Outcome.under, descendRest, hrest, houtcome]

/-! ### Whole parses -/

theorem Machine.facing_start (state : S) (h : source ≠ "") :
    (Machine.start source state : Machine R T S).Facing source Arena.root state 0 source [] := by
  refine ⟨?_, ?_, h⟩
  · simp [Machine.start, h]
  · simpa using Text.slice?_self source

/-- A machine that comes to an outcome ends or fails, and runs that are long enough have the result
of the outcome. -/
theorem Outcome.Reached.run_value {outcome : Outcome R T} {machine : Machine R T S}
    (harena : machine.arena = {}) (h : outcome.Reached rules source machine Arena.root []) :
    (∃ bound, Halts rules source bound machine) ∧
      ∀ bound, Halts rules source bound machine →
        (run rules source bound machine).value = outcome.result := by
  suffices ∃ n final, Reaches rules source n machine final ∧ Halts rules source 1 final ∧
      (run rules source 1 final).value = outcome.result by
    obtain ⟨n, final, hreach, hlast, hvalue⟩ := this
    refine ⟨(hreach.run_eq hlast).1, fun bound hbound => ?_⟩
    rw [(hreach.run_eq hlast).2 bound hbound, hvalue]
  cases outcome with
  | whole forest last =>
    obtain ⟨n, final, hreach, hpending, -, hgrown⟩ := h
    rw [harena] at hgrown
    have hstep := step_of_pending_eq_nil rules source hpending
    refine ⟨n, final, hreach, halts_of_ended hstep, ?_⟩
    rw [run_of_ended hstep, hgrown.finish_eq, Outcome.result]
  | stopped forest =>
    obtain ⟨n, final, hreach, hempty, hgrown⟩ := h
    rw [harena] at hgrown
    obtain ⟨final', hstep, hsame⟩ := hempty.step_eq rules source
    refine ⟨n, final, hreach, halts_of_ended hstep, ?_⟩
    rw [run_of_ended hstep, hsame, hgrown.finish_eq, Outcome.result]
  | failed error =>
    obtain ⟨n, final, events, hreach, hstep⟩ := h
    exact ⟨n, final, hreach, halts_of_failed hstep, run_of_failed hstep⟩

include hrules in
/-- If every rule returns captures over the window that it is given, then the runs that end have
exactly the results of the descent through the source: the forest, or the error. -/
theorem run_value_eq_iff_descent (source : String) (state : S)
    (result : Except ParseError (List (Node R T))) :
    (∃ bound, Halts rules source bound (.start source state) ∧
        (run rules source bound (.start source state)).value = result) ↔
      ∃ depth, descent rules depth source state = some result := by
  by_cases hsource : source = ""
  · subst hsource
    have hreached : Outcome.Reached rules "" (.start "" state : Machine R T S) Arena.root []
        (.whole [] none) := ⟨0, _, .refl _, rfl, rfl, .refl _ _⟩
    obtain ⟨⟨bound, hhalts⟩, hvalue⟩ := hreached.run_value rfl
    constructor
    · rintro ⟨bound, hbound, rfl⟩
      exact ⟨0, by rw [hvalue bound hbound]; rfl⟩
    · rintro ⟨depth, hdepth⟩
      obtain rfl := Option.some.inj hdepth
      exact ⟨bound, hhalts, hvalue bound hhalts⟩
  · have hface := Machine.facing_start (R := R) (T := T) state hsource
    have hnonempty : source.isEmpty = false := by simpa using hsource
    constructor
    · rintro ⟨bound, hhalts, rfl⟩
      obtain ⟨depth, outcome, houtcome⟩ := exists_descend_of_halts hrules hhalts hface
      have hreached := reached_of_descend hrules depth houtcome hface rfl
      refine ⟨depth, ?_⟩
      rw [(hreached.run_value rfl).2 bound hhalts, descent, hnonempty]
      exact congrArg (Option.map Outcome.result) houtcome
    · rintro ⟨depth, hdepth⟩
      rw [descent, hnonempty] at hdepth
      obtain ⟨outcome, houtcome, rfl⟩ := Option.map_eq_some_iff.1 hdepth
      obtain ⟨⟨bound, hhalts⟩, hvalue⟩ :=
        (reached_of_descend hrules depth houtcome hface rfl).run_value rfl
      exact ⟨bound, hhalts, hvalue bound hhalts⟩

/-- List items, bold text and plain text. -/
def itemRules : List (Rule Unit Unit Unit) :=
  [Block.listItemRule .empty, .style Inline.bold [], .text Inline.text]

/-- Bold text, a line end and an empty list item.  The parse is stopped at the item, and what comes
after it is not parsed. -/
theorem run_value_of_empty_item :
    (∀ rule ∈ itemRules, rule.KeepsToWindow) ∧
      ∃ forest, Forest.size forest = 4 ∧
        descent itemRules 6 "**a**\n* \nb" () = some (.ok forest) ∧
        ∃ bound, Halts itemRules "**a**\n* \nb" bound (.start "**a**\n* \nb" ()) ∧
          (run itemRules "**a**\n* \nb" bound (.start "**a**\n* \nb" ())).value = .ok forest := by
  have hrules : ∀ rule ∈ itemRules, rule.KeepsToWindow := by
    intro rule hrule
    simp only [itemRules, List.mem_cons, List.not_mem_nil, or_false] at hrule
    rcases hrule with rfl | rfl | rfl
    · exact (Rule.keepsToWindow_matching _ _).atLineStart
    · exact Rule.keepsToWindow_matching _ _
    · exact Rule.keepsToWindow_matching _ _
  have hdescent : (descent itemRules 6 "**a**\n* \nb" ()).any
      (fun result => result.toOption.any (Forest.size · = 4)) = true := by decide +kernel
  obtain ⟨result, hresult, hsize⟩ := (Option.any_eq_true _ _).1 hdescent
  cases result with
  | error error => cases hsize
  | ok forest =>
    exact ⟨hrules, forest, of_decide_eq_true hsize, hresult,
      (run_value_eq_iff_descent hrules _ () (.ok forest)).2 ⟨6, hresult⟩⟩

end RuledMarkup
