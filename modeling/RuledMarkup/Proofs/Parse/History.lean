import RuledMarkup.Proofs.Parse.Agreement

/-!
# The history of a parse

Each step that goes on makes one match: it attaches one node.  The matches that have been made from
the start of a parse up to some machine, in the order in which they were made, are the history of
that machine.  A node is numbered by its place in the history, and the number of its parent is
smaller.

## Main definitions

* `Match` : a match that a step has made.
* `Machine.Makes` : a step makes a match.
* `History` : the matches that lead from the start of a parse to a machine.

## Main results

* `exists_makes` : every step that goes on makes a match.
* `exists_history` : every machine that is reached has a history.
* `History.attached_eq` : what is attached are the nodes of the history.
* `History.parent_le`, `History.parent_lt_id` : nodes are attached to nodes that came before them.
-/

namespace RuledMarkup

variable {R T S : Type} {rules : List (Rule R T S)} {source : String}

/-- A match that a step of a parse has made. -/
structure Match (R T S : Type) where
  /-- The number of the node that was attached. -/
  id : Nat
  /-- The number of the node that it was attached to. -/
  parent : Nat
  /-- The state in which the rules were tried and the node was built. -/
  state : S
  /-- The byte of the source at which the window starts. -/
  offset : Nat
  window : String
  captures : Captures
  /-- What the rule has made of the match. -/
  spec : Spec R T S

namespace Match

/-- The span that was pending. -/
def item (found : Match R T S) : Pending S :=
  ⟨found.parent, found.state, ⟨found.offset, found.offset + found.window.utf8ByteSize⟩⟩

@[simp] theorem parent_item (found : Match R T S) : found.item.parent = found.parent := rfl

/-- The node as it was attached. -/
def attachment (found : Match R T S) : Attachment R T := ⟨found.id, found.parent, found.spec.root⟩

/-- The text that was consumed. -/
def consumed (found : Match R T S) : String := found.captures.consumed

/-- The bytes of the source that were consumed. -/
def range (found : Match R T S) : Text.ByteRange :=
  ⟨found.offset, found.offset + found.captures.size⟩

/-- The bytes of the source that the rule wants to be parsed, if there are any. -/
def wanted? (found : Match R T S) : Option Text.ByteRange :=
  found.spec.span.map (·.shift found.offset)

end Match

/-- A step from one machine to the next makes a match. -/
structure Machine.Makes (rules : List (Rule R T S)) (source : String) (machine : Machine R T S)
    (found : Match R T S) (machine' : Machine R T S) : Prop where
  step_eq : step rules source machine = .running machine'
  id_eq : found.id = machine.arena.count + 1
  slice?_eq : Text.slice? source found.item.range = some found.window
  build_eq : buildFirst rules source found.offset found.window machine.last found.state =
    .ok (found.captures, found.spec)
  fits : found.spec.span.all (fitsWindow found.window) = true
  pending_eq : ∃ pending, machine.pending = found.item :: pending ∧
    machine'.pending = found.item.following found.captures.size found.id found.spec.state
      found.spec.span ++ pending
  arena_eq : machine'.arena = (machine.arena.attach found.parent found.spec.root).1

theorem Machine.Makes.count_eq {machine machine' : Machine R T S} {found : Match R T S}
    (h : machine.Makes rules source found machine') :
    machine'.arena.count = machine.arena.count + 1 := by
  rw [h.arena_eq, Arena.attach]

/-- What a match has consumed is what has been consumed last. -/
theorem Machine.Makes.last_eq {machine machine' : Machine R T S} {found : Match R T S}
    (h : machine.Makes rules source found machine') : machine'.last = some found.consumed := by
  obtain ⟨item, pending, window, captures, spec, hpending, -, hwindow, hbuild, -, -, -, hlast⟩ :=
    step_running_cases h.step_eq
  obtain ⟨pending', hpending', -⟩ := h.pending_eq
  obtain ⟨rfl, -⟩ := List.cons.inj (hpending.symm.trans hpending')
  obtain rfl := Option.some.inj (hwindow.symm.trans h.slice?_eq)
  cases hbuild.symm.trans h.build_eq
  exact hlast

/-- What a match has consumed is a slice of the source. -/
theorem Machine.Makes.slice?_range {machine machine' : Machine R T S} {found : Match R T S}
    (h : machine.Makes rules source found machine') (hover : found.captures.Over found.window) :
    Text.slice? source found.range = some found.consumed :=
  hover.slice?_consumed h.slice?_eq

/-- Every step that goes on makes a match. -/
theorem exists_makes {machine machine' : Machine R T S}
    (h : step rules source machine = .running machine') :
    ∃ found, machine.Makes rules source found machine' := by
  obtain ⟨⟨parent, state, start, stop⟩, pending, window, captures, spec, hpending, -, hwindow,
    hbuild, hfits, hpending', harena, -⟩ := step_running_cases h
  obtain rfl : start + window.utf8ByteSize = stop := Text.utf8ByteSize_of_slice? hwindow
  exact ⟨⟨machine.arena.count + 1, parent, state, start, window, captures, spec⟩,
    h, rfl, hwindow, hbuild, hfits, ⟨pending, hpending, hpending'⟩, harena⟩

/-- What is put on the stack after a match belongs to the node of the match and has the state of the
rule, or it belongs to the parent of that node and keeps its state. -/
theorem Pending.of_mem_following {item entry : Pending S} {size id : Nat} {state : S}
    {span : Option Text.ByteRange} (h : entry ∈ item.following size id state span) :
    entry.parent = id ∧ entry.state = state ∨
      entry.parent = item.parent ∧ entry.state = item.state := by
  have hrest : ∀ entry ∈ item.rest size,
      entry.parent = item.parent ∧ entry.state = item.state := by
    intro entry hentry
    rw [Pending.rest] at hentry
    split_ifs at hentry
    · cases hentry
    · obtain rfl := List.mem_singleton.1 hentry
      exact ⟨rfl, rfl⟩
  cases span with
  | none => exact .inr (hrest entry h)
  | some span =>
    rcases List.mem_cons.1 h with rfl | h
    · exact .inl ⟨rfl, rfl⟩
    · exact .inr (hrest entry h)

/-- The matches that lead from the start of a parse to a machine, in the order in which they were
made. -/
inductive History (rules : List (Rule R T S)) (source : String) (state : S) :
    List (Match R T S) → Machine R T S → Prop
  | start : History rules source state [] (.start source state)
  | step {found : List (Match R T S)} {machine machine' : Machine R T S} {latest : Match R T S}
      (h : History rules source state found machine)
      (hmakes : machine.Makes rules source latest machine') :
      History rules source state (found ++ [latest]) machine'

/-- Every machine that is reached from the start of a parse has a history. -/
theorem exists_history {n : Nat} {state : S} {machine : Machine R T S}
    (h : Reaches rules source n (.start source state) machine) :
    ∃ found, History rules source state found machine := by
  refine h.invariant (P := fun machine => ∃ found, History rules source state found machine) ?_
    ⟨[], .start⟩
  rintro machine machine' hstep ⟨found, hfound⟩
  obtain ⟨latest, hmakes⟩ := exists_makes hstep
  exact ⟨found ++ [latest], hfound.step hmakes⟩

/-! ### A number of steps -/

/-- The machine after a number of steps, if the parse goes on that long. -/
def Machine.after? (rules : List (Rule R T S)) (source : String) :
    Nat → Machine R T S → Option (Machine R T S)
  | 0, machine => some machine
  | n + 1, machine =>
    match step rules source machine with
    | .running machine' => machine'.after? rules source n
    | _ => none

theorem reaches_of_after? {n : Nat} {machine machine' : Machine R T S}
    (h : machine.after? rules source n = some machine') :
    Reaches rules source n machine machine' := by
  induction n generalizing machine with
  | zero =>
    obtain rfl := Option.some.inj h
    exact .refl machine
  | succ n ih =>
    rw [Machine.after?] at h
    cases hstep : step rules source machine with
    | running middle =>
      rw [hstep] at h
      exact .head hstep (ih h)
    | ended final =>
      rw [hstep] at h
      cases h
    | failed events error =>
      rw [hstep] at h
      cases h

/-! ### What a history tells -/

namespace History

variable {state : S} {found : List (Match R T S)} {machine : Machine R T S}

/-- The machine of a history is reached from the start. -/
theorem exists_reaches (h : History rules source state found machine) :
    ∃ n, Reaches rules source n (.start source state) machine := by
  induction h with
  | start => exact ⟨0, .refl _⟩
  | step h hmakes ih =>
    obtain ⟨n, hreach⟩ := ih
    exact ⟨n + 1, hreach.trans (.single hmakes.step_eq)⟩

/-- Each match of a history was made by a step of the parse. -/
theorem exists_makes_of_mem (h : History rules source state found machine) {item : Match R T S}
    (hitem : item ∈ found) :
    ∃ n before after, Reaches rules source n (.start source state) before ∧
      before.Makes rules source item after := by
  induction h with
  | start => cases hitem
  | step h hmakes ih =>
    rcases List.mem_append.1 hitem with hitem | hitem
    · exact ih hitem
    · obtain rfl := List.mem_singleton.1 hitem
      obtain ⟨n, hreach⟩ := h.exists_reaches
      exact ⟨n, _, _, hreach, hmakes⟩

/-- What is attached are the nodes of the history. -/
theorem attached_eq (h : History rules source state found machine) :
    machine.arena.attached = (found.map Match.attachment).reverse ∧
      machine.arena.count = found.length := by
  induction h with
  | start => exact ⟨rfl, rfl⟩
  | step h hmakes ih =>
    rw [hmakes.arena_eq, Arena.attach]
    simp [ih.1, ih.2, Match.attachment, hmakes.id_eq]

/-- The parents of pending spans have been attached. -/
theorem parent_le (h : History rules source state found machine) :
    ∀ item ∈ machine.pending, item.parent ≤ machine.arena.count := by
  induction h with
  | start =>
    intro item hitem
    rw [Machine.start] at hitem
    dsimp only at hitem
    split_ifs at hitem
    · cases hitem
    · obtain rfl := List.mem_singleton.1 hitem
      exact Nat.zero_le _
  | @step found machine machine' latest h hmakes ih =>
    obtain ⟨pending, hpending, hpending'⟩ := hmakes.pending_eq
    rw [hpending] at ih
    obtain ⟨hlatest, hlater⟩ := List.forall_mem_cons.1 ih
    rw [hpending', hmakes.count_eq]
    refine List.forall_mem_append.2 ⟨fun item hitem => ?_, fun item hitem => ?_⟩
    · rcases Pending.of_mem_following hitem with ⟨hid, -⟩ | ⟨hparent, -⟩
      · exact Nat.le_of_eq (hid.trans hmakes.id_eq)
      · rw [hparent]
        exact Nat.le_succ_of_le hlatest
    · exact Nat.le_succ_of_le (hlater item hitem)

/-- A node is attached to one that came before it. -/
theorem parent_lt_id (h : History rules source state found machine) :
    ∀ item ∈ found, item.parent < item.id ∧ item.id ≤ machine.arena.count := by
  induction h with
  | start => simp
  | @step found machine machine' latest h hmakes ih =>
    obtain ⟨pending, hpending, -⟩ := hmakes.pending_eq
    have hparent : latest.parent ≤ machine.arena.count :=
      h.parent_le latest.item (by simp [hpending])
    rw [hmakes.count_eq]
    refine List.forall_mem_append.2 ⟨fun item hitem => ?_, fun item hitem => ?_⟩
    · exact ⟨(ih item hitem).1, Nat.le_succ_of_le (ih item hitem).2⟩
    · obtain rfl := List.mem_singleton.1 hitem
      rw [hmakes.id_eq]
      exact ⟨Nat.lt_succ_of_le hparent, Nat.le_refl _⟩

/-- The nodes of a history have been attached in order. -/
theorem inOrder (h : History rules source state found machine) :
    Attachment.InOrder machine.arena.attached := by
  induction h with
  | start => exact .nil
  | @step found machine machine' latest h hmakes ih =>
    obtain ⟨pending, hpending, -⟩ := hmakes.pending_eq
    obtain ⟨hattached, hcount⟩ := h.attached_eq
    have hlength : machine.arena.count = machine.arena.attached.length := by
      rw [hattached, hcount, List.length_reverse, List.length_map]
    have hparent : latest.parent ≤ machine.arena.attached.length :=
      hlength ▸ h.parent_le latest.item (by simp [hpending])
    rw [hmakes.arena_eq, Arena.attach, hlength]
    exact ih.cons hparent _

/-- The numbers of the nodes grow from match to match. -/
theorem pairwise_id_lt (h : History rules source state found machine) :
    found.Pairwise (·.id < ·.id) := by
  induction h with
  | start => exact .nil
  | @step found machine machine' latest h hmakes ih =>
    refine List.pairwise_append.2
      ⟨ih, List.pairwise_singleton _ _, fun item hitem later hlater => ?_⟩
    obtain rfl := List.mem_singleton.1 hlater
    rw [hmakes.id_eq]
    exact Nat.lt_succ_of_le (h.parent_lt_id item hitem).2

end History

end RuledMarkup
