import RuledMarkup.Proofs.Inline.Markup
import RuledMarkup.Proofs.Node.Text
import RuledMarkup.Proofs.Parse.History

/-!
# Matches tile what is parsed

The matches that are made under one node lie one after the other, from the first byte of the span
that the rule of the node has asked for to the last one.  While a parse runs, what is left of such a
span is pending under the node, whatever is found below its children in the meantime.

## Main definitions

* `Text.Consecutive` : ranges that follow each other.
* `matchesUnder` : the matches made under a node.
* `Tiling` : matches that put a text together.

## Main results

* `History.consecutive_rangesUnder` : what has been matched and what is pending under a node follow
  each other.
* `run_tiles` : in a parse that succeeds and does not come to an empty span, the matches under each
  node tile the span that was asked for.
-/

namespace RuledMarkup

/-! ### Ranges in a row -/

namespace Text

/-- The ranges follow each other without a gap and without an overlap, from one byte to another. -/
def Consecutive : Nat → List ByteRange → Nat → Prop
  | start, [], stop => start = stop
  | start, r :: ranges, stop => r.start = start ∧ start ≤ r.stop ∧ Consecutive r.stop ranges stop

theorem consecutive_append {start stop : Nat} {a b : List ByteRange} :
    Consecutive start (a ++ b) stop ↔
      ∃ middle, Consecutive start a middle ∧ Consecutive middle b stop := by
  induction a generalizing start with
  | nil => simp [Consecutive]
  | cons r a ih =>
    simp only [List.cons_append, Consecutive, ih]
    constructor
    · rintro ⟨hstart, hle, middle, ha, hb⟩
      exact ⟨middle, ⟨hstart, hle, ha⟩, hb⟩
    · rintro ⟨middle, ⟨hstart, hle, ha⟩, hb⟩
      exact ⟨hstart, hle, middle, ha, hb⟩

/-- Slices that follow each other put together the slice from the first to the last of them. -/
theorem slice?_join {α : Type} {s : String} {range : α → ByteRange} {text : α → String}
    {parts : List α} (hparts : ∀ part ∈ parts, slice? s (range part) = some (text part))
    {start stop : Nat} (h : Consecutive start (parts.map range) stop)
    (hstart : isBoundary s start) :
    slice? s ⟨start, stop⟩ = some (String.join (parts.map text)) := by
  induction parts generalizing start with
  | nil =>
    obtain rfl : start = stop := h
    obtain ⟨a, b, rfl, rfl⟩ := isBoundary_iff.1 hstart
    exact slice?_eq_some_iff.2 ⟨a, b, by simp, rfl, by simp⟩
  | cons part parts ih =>
    obtain ⟨hpart, hparts⟩ := List.forall_mem_cons.1 hparts
    obtain ⟨rfl, -, hrest⟩ := h
    rw [List.map_cons, String.join_cons]
    have hstop := (isSome_slice?_iff.1 (Option.isSome_iff_exists.2 ⟨_, hpart⟩)).2.2
    exact slice?_append hpart (ih hparts hrest hstop)

end Text

variable {R T S : Type} {rules : List (Rule R T S)} {source : String}

/-! ### Levels of a parse -/

/-- The matches that were made under a node, in order. -/
def matchesUnder (found : List (Match R T S)) (parent : Nat) : List (Match R T S) :=
  found.filter (·.parent = parent)

/-- The spans that are pending under a node, the next one first. -/
def pendingUnder (pending : List (Pending S)) (parent : Nat) : List (Pending S) :=
  pending.filter (·.parent = parent)

/-- What has been matched under a node and what is pending there. -/
def rangesUnder (found : List (Match R T S)) (pending : List (Pending S)) (parent : Nat) :
    List Text.ByteRange :=
  (matchesUnder found parent).map Match.range ++ (pendingUnder pending parent).map (·.range)

/-- The nodes under which something is parsed, with the spans that are parsed there: the root with
the source, and the nodes whose rules have asked for a span. -/
def levels (source : String) (found : List (Match R T S)) : List (Nat × Text.ByteRange) :=
  (Arena.root, ⟨0, source.utf8ByteSize⟩) ::
    found.filterMap fun item => item.wanted?.map (item.id, ·)

/-- Everything under a node is matched or pending. -/
def Covers (found : List (Match R T S)) (pending : List (Pending S))
    (level : Nat × Text.ByteRange) : Prop :=
  Text.Consecutive level.2.start (rangesUnder found pending level.1) level.2.stop

theorem matchesUnder_append (a b : List (Match R T S)) (parent : Nat) :
    matchesUnder (a ++ b) parent = matchesUnder a parent ++ matchesUnder b parent :=
  List.filter_append ..

theorem pendingUnder_append (a b : List (Pending S)) (parent : Nat) :
    pendingUnder (a ++ b) parent = pendingUnder a parent ++ pendingUnder b parent :=
  List.filter_append ..

theorem pendingUnder_cons (item : Pending S) (pending : List (Pending S)) (parent : Nat) :
    pendingUnder (item :: pending) parent =
      if item.parent = parent then item :: pendingUnder pending parent
      else pendingUnder pending parent := by
  simp [pendingUnder, List.filter_cons]

theorem levels_append (found : List (Match R T S)) (latest : Match R T S) :
    levels source (found ++ [latest]) =
      levels source found ++ (latest.wanted?.map (latest.id, ·)).toList := by
  rw [levels, levels, List.filterMap_append, List.cons_append]
  cases hwanted : latest.wanted? <;> simp [hwanted]

/-- Nothing is pending under a node after all those that pending spans belong to. -/
theorem pendingUnder_eq_nil {pending : List (Pending S)} {parent : Nat}
    (h : ∀ item ∈ pending, item.parent < parent) : pendingUnder pending parent = [] := by
  rw [pendingUnder, List.filter_eq_nil_iff]
  intro item hitem
  have := h item hitem
  simp only [decide_eq_true_eq]
  omega

/-- What is left of a span belongs where the span belongs. -/
theorem Pending.parent_of_mem_rest {item entry : Pending S} {size : Nat}
    (h : entry ∈ item.rest size) : entry.parent = item.parent := by
  rw [Pending.rest] at h
  split_ifs at h
  · cases h
  · rw [List.mem_singleton.1 h]

/-- A match and what is left of its span take the place of the span. -/
theorem consecutive_rest {found : Match R T S} (hsize : found.captures.size ≤
      found.window.utf8ByteSize) {ranges : List Text.ByteRange} {start stop : Nat}
    (h : Text.Consecutive start (found.item.range :: ranges) stop) :
    Text.Consecutive start (found.range ::
      (found.item.rest found.captures.size).map (·.range) ++ ranges) stop := by
  obtain ⟨hstart, -, hranges⟩ := h
  simp only [Match.item] at hstart hranges
  subst hstart
  refine ⟨rfl, Nat.le_add_right _ _, ?_⟩
  rw [Pending.rest]
  split_ifs with hend
  · simp only [Match.item] at hend
    simpa [Match.range, hend] using hranges
  · refine ⟨rfl, ?_, hranges⟩
    simp only [Match.range, Match.item]
    omega

namespace Machine.Makes

variable {machine machine' : Machine R T S} {latest : Match R T S} {found : List (Match R T S)}

/-- A step keeps every level of a parse covered that was covered before it. -/
theorem covers_of_le (hmakes : machine.Makes rules source latest machine')
    (hsize : latest.captures.size ≤ latest.window.utf8ByteSize) {level : Nat × Text.ByteRange}
    (hlevel : level.1 ≤ machine.arena.count) (h : Covers found machine.pending level) :
    Covers (found ++ [latest]) machine'.pending level := by
  obtain ⟨pending, hpending, hpending'⟩ := hmakes.pending_eq
  obtain ⟨parent, span⟩ := level
  have hnew : parent ≠ latest.id := by
    rw [hmakes.id_eq]
    exact Nat.ne_of_lt (Nat.lt_succ_of_le hlevel)
  -- The span that the rule asks for is not pending under this level.
  have hfollowing : pendingUnder machine'.pending parent =
      pendingUnder (latest.item.rest latest.captures.size) parent ++
        pendingUnder pending parent := by
    rw [hpending', pendingUnder_append]
    congr 1
    cases hspan : latest.spec.span with
    | none => rfl
    | some inner =>
      rw [Pending.following_some, pendingUnder_cons, if_neg hnew.symm]
  simp only [Covers, rangesUnder, hfollowing, matchesUnder_append] at h ⊢
  by_cases hparent : latest.parent = parent
  · have hmatch : matchesUnder [latest] parent = [latest] := by simp [matchesUnder, hparent]
    have hrest : pendingUnder (latest.item.rest latest.captures.size) parent =
        latest.item.rest latest.captures.size :=
      List.filter_eq_self.2 fun entry hentry => by
        simpa using (Pending.parent_of_mem_rest hentry).trans hparent
    have htop : pendingUnder machine.pending parent =
        latest.item :: pendingUnder pending parent := by
      rw [hpending, pendingUnder_cons, Match.parent_item, if_pos hparent]
    rw [htop, List.map_cons] at h
    rw [hmatch, hrest]
    obtain ⟨middle, hbefore, hafter⟩ := Text.consecutive_append.1 h
    simpa using Text.consecutive_append.2 ⟨middle, hbefore, consecutive_rest hsize hafter⟩
  · have hmatch : matchesUnder [latest] parent = [] := by simp [matchesUnder, hparent]
    have hrest : pendingUnder (latest.item.rest latest.captures.size) parent = [] :=
      List.filter_eq_nil_iff.2 fun entry hentry => by
        simpa [Pending.parent_of_mem_rest hentry] using hparent
    have htop : pendingUnder machine.pending parent = pendingUnder pending parent := by
      rw [hpending, pendingUnder_cons, Match.parent_item, if_neg hparent]
    rw [htop] at h
    simpa [hmatch, hrest] using h

/-- The span that a rule asks for is all that is pending under its node at first. -/
theorem covers_latest (hmakes : machine.Makes rules source latest machine')
    (hpending : ∀ item ∈ machine.pending, item.parent ≤ machine.arena.count)
    (hfound : ∀ item ∈ found, item.parent ≤ machine.arena.count) {span : Text.ByteRange}
    (hspan : latest.wanted? = some span) :
    Covers (found ++ [latest]) machine'.pending (latest.id, span) := by
  obtain ⟨pending, heq, heq'⟩ := hmakes.pending_eq
  have hfits := hmakes.fits
  obtain ⟨inner, hinner, rfl⟩ := Option.map_eq_some_iff.1 hspan
  rw [hinner, Option.all_some, fitsWindow, Bool.and_eq_true, decide_eq_true_eq] at hfits
  rw [heq] at hpending
  obtain ⟨htop, hbelow⟩ := List.forall_mem_cons.1 hpending
  have hid := hmakes.id_eq
  have hmatches : matchesUnder (found ++ [latest]) latest.id = [] := by
    rw [matchesUnder, List.filter_eq_nil_iff]
    refine List.forall_mem_append.2 ⟨fun item hitem => ?_, fun item hitem => ?_⟩
    · have := hfound item hitem
      simp only [decide_eq_true_eq]
      omega
    · obtain rfl := List.mem_singleton.1 hitem
      simp only [Match.item] at htop
      simp only [decide_eq_true_eq]
      omega
  have hlater : pendingUnder (latest.item.rest latest.captures.size ++ pending) latest.id = [] := by
    refine pendingUnder_eq_nil
      (List.forall_mem_append.2 ⟨fun item hitem => ?_, fun item hitem => ?_⟩)
    · rw [Pending.parent_of_mem_rest hitem]
      omega
    · have := hbelow item hitem
      omega
  have hunder : pendingUnder machine'.pending latest.id =
      [⟨latest.id, latest.spec.state, inner.shift latest.offset⟩] := by
    rw [heq', hinner, Pending.following_some, List.cons_append, pendingUnder_cons, if_pos rfl,
      hlater]
    rfl
  simp only [Covers, rangesUnder, hmatches, hunder]
  refine ⟨rfl, ?_, rfl⟩
  simp only [Text.ByteRange.shift]
  omega

end Machine.Makes

namespace History

variable {state : S} {found : List (Match R T S)} {machine : Machine R T S}

/-- The levels of a parse belong to nodes that have been attached. -/
theorem level_le (h : History rules source state found machine) :
    ∀ level ∈ levels source found, level.1 ≤ machine.arena.count := by
  refine List.forall_mem_cons.2 ⟨Nat.zero_le _, fun level hlevel => ?_⟩
  obtain ⟨item, hitem, hwanted⟩ := List.mem_filterMap.1 hlevel
  obtain ⟨span, -, rfl⟩ := Option.map_eq_some_iff.1 hwanted
  exact (h.parent_lt_id item hitem).2

/-- What has been matched and what is pending under a node follow each other. -/
theorem covers (hrules : ∀ rule ∈ rules, rule.KeepsToWindow)
    (h : History rules source state found machine) :
    ∀ level ∈ levels source found, Covers found machine.pending level := by
  induction h with
  | start =>
    intro level hlevel
    obtain rfl := List.mem_singleton.1 hlevel
    simp only [Covers, rangesUnder, Machine.start]
    split_ifs with hsource
    · simp [Text.Consecutive, matchesUnder, pendingUnder, String.isEmpty_iff.1 hsource]
    · simp [Text.Consecutive, matchesUnder, pendingUnder]
  | @step found machine machine' latest h hmakes ih =>
    have hsize := (over_of_buildFirst hrules hmakes.build_eq).size_le
    rw [levels_append]
    refine List.forall_mem_append.2 ⟨fun level hlevel => ?_, fun level hlevel => ?_⟩
    · exact hmakes.covers_of_le hsize (h.level_le level hlevel) (ih level hlevel)
    · obtain ⟨span, hspan, rfl⟩ := Option.map_eq_some_iff.1 (Option.mem_toList.1 hlevel)
      refine hmakes.covers_latest h.parent_le (fun item hitem => ?_) hspan
      have := h.parent_lt_id item hitem
      omega

/-- What a match has consumed is a slice of the source. -/
theorem slice?_range (hrules : ∀ rule ∈ rules, rule.KeepsToWindow)
    (h : History rules source state found machine) {item : Match R T S} (hitem : item ∈ found) :
    Text.slice? source item.range = some item.consumed := by
  obtain ⟨-, before, after, -, hmakes⟩ := h.exists_makes_of_mem hitem
  exact hmakes.slice?_range (over_of_buildFirst hrules hmakes.build_eq)

/-- Without early stop the spans that rules ask for are not empty. -/
theorem isEmpty_wanted (hstop : ¬ StopsEarly rules source state)
    (h : History rules source state found machine) {item : Match R T S} (hitem : item ∈ found)
    {span : Text.ByteRange} (hspan : item.wanted? = some span) : span.isEmpty = false := by
  obtain ⟨n, before, after, hreach, hmakes⟩ := h.exists_makes_of_mem hitem
  obtain ⟨pending, -, hpending⟩ := hmakes.pending_eq
  obtain ⟨inner, hinner, rfl⟩ := Option.map_eq_some_iff.1 hspan
  rw [hinner, Pending.following_some, List.cons_append] at hpending
  rw [← Bool.not_eq_true]
  exact fun hempty =>
    hstop ⟨n + 1, after, hreach.trans (.single hmakes.step_eq), _, _, hpending, hempty⟩

/-- The completed children that were attached to each node. -/
theorem exists_children (h : History rules source state found machine) :
    ∃ below : Nat → List (Node R T), below Arena.root = machine.arena.finish ∧
      ∀ parent, below parent = (matchesUnder found parent).map
        fun item => item.spec.root.addChildren (below item.id) := by
  obtain ⟨hattached, -⟩ := h.attached_eq
  refine ⟨Arena.completed (fun _ => []) machine.arena.attached, ?_, fun parent => ?_⟩
  · rw [Arena.finish, TreeBuilder.finish_ofAttached h.inOrder]
  · rw [TreeBuilder.completed_eq_map_whole h.inOrder, hattached, List.reverse_reverse,
      matchesUnder, List.filter_map, List.map_map, ← hattached]
    rfl

end History

/-! ### Parses that succeed -/

/-- A step ends a parse where nothing is pending, or at an empty span. -/
theorem step_ended_cases {machine machine' : Machine R T S}
    (h : step rules source machine = .ended machine') :
    machine'.arena = machine.arena ∧ (machine.pending = [] ∨ machine.AtEmptySpan) := by
  cases hpending : machine.pending with
  | nil =>
    cases (step_of_pending_eq_nil rules source hpending).symm.trans h
    exact ⟨rfl, .inl rfl⟩
  | cons item pending =>
    cases hrange : item.range.isEmpty with
    | true =>
      have hempty : machine.AtEmptySpan := ⟨item, pending, hpending, hrange⟩
      obtain ⟨ended, hstep, harena⟩ := hempty.step_eq rules source
      cases hstep.symm.trans h
      exact ⟨harena, .inr hempty⟩
    | false =>
      rw [step_eq_stepAt hpending hrange] at h
      cases hwindow : Text.slice? source item.range with
      | none =>
        rw [stepAt, hwindow] at h
        cases h
      | some window =>
        obtain ⟨events, hstep⟩ := stepAt_eq_ofBuilt rules machine pending hwindow
        rw [hstep] at h
        cases hbuild : buildFirst rules source item.range.start window machine.last item.state with
        | error error =>
          rw [hbuild] at h
          cases h
        | ok built =>
          rw [hbuild, Progress.ofBuilt] at h
          split_ifs at h

/-- A run that succeeds comes to a machine at which the parse ends. -/
theorem exists_reaches_of_run {bound : Nat} {machine : Machine R T S} {forest : List (Node R T)}
    (h : (run rules source bound machine).value = .ok forest) :
    ∃ n final, Reaches rules source n machine final ∧ final.arena.finish = forest ∧
      (final.pending = [] ∨ final.AtEmptySpan) := by
  induction bound generalizing machine with
  | zero => cases h
  | succ bound ih =>
    rw [run] at h
    cases hstep : step rules source machine with
    | running middle =>
      rw [hstep] at h
      obtain ⟨n, final, hreach, hfinal⟩ := ih h
      exact ⟨n + 1, final, .head hstep hreach, hfinal⟩
    | failed events error =>
      rw [hstep] at h
      cases h
    | ended final =>
      rw [hstep] at h
      obtain ⟨harena, hend⟩ := step_ended_cases hstep
      exact ⟨0, machine, .refl _, harena ▸ Except.ok.inj h, hend⟩

/-- The matches put a text together that stands at a byte of the source. -/
structure Tiling (offset : Nat) (text : String) (found : List (Match R T S)) : Prop where
  consecutive : Text.Consecutive offset (found.map Match.range) (offset + text.utf8ByteSize)
  join_consumed : String.join (found.map Match.consumed) = text

/-- A level under which nothing is pending any more is tiled by its matches. -/
theorem History.tiling (hrules : ∀ rule ∈ rules, rule.KeepsToWindow) {state : S}
    {found : List (Match R T S)} {machine : Machine R T S}
    (h : History rules source state found machine) (hpending : machine.pending = [])
    {level : Nat × Text.ByteRange} (hlevel : level ∈ levels source found)
    (hboundary : Text.isBoundary source level.2.start = true ∨ level.2.isEmpty = false) :
    ∃ text, Text.slice? source level.2 = some text ∧
      Tiling level.2.start text (matchesUnder found level.1) := by
  have hcovers := h.covers hrules level hlevel
  simp only [Covers, rangesUnder, hpending, pendingUnder, List.filter_nil, List.map_nil,
    List.append_nil] at hcovers
  have hslices : ∀ item ∈ matchesUnder found level.1,
      Text.slice? source item.range = some item.consumed :=
    fun item hitem => h.slice?_range hrules (List.mem_filter.1 hitem).1
  have hstart : Text.isBoundary source level.2.start = true := by
    rcases hboundary with hboundary | hnonempty
    · exact hboundary
    · -- A level that is not empty starts where its first match starts.
      cases hmatches : matchesUnder found level.1 with
      | nil =>
        rw [hmatches] at hcovers
        rw [Text.ByteRange.isEmpty_eq_false_iff] at hnonempty
        exact absurd hcovers (Nat.ne_of_lt hnonempty)
      | cons item later =>
        rw [hmatches] at hcovers hslices
        rw [← hcovers.1]
        exact (Text.isSome_slice?_iff.1
          (Option.isSome_iff_exists.2 ⟨_, hslices item List.mem_cons_self⟩)).2.1
  have hslice := Text.slice?_join hslices hcovers hstart
  refine ⟨_, hslice, ?_, rfl⟩
  rw [Text.utf8ByteSize_of_slice? hslice]
  exact hcovers

/-! ### Rules for plain text -/

/-- A rule for plain text asks for nothing to be parsed further. -/
theorem spec_of_buildFirst_text {patterns : List Pattern} {offset : Nat} {window : String}
    {last : Option String} {state : S} {captures : Captures} {spec : Spec R T S}
    (h : buildFirst (patterns.map Rule.text) source offset window last state =
      .ok (captures, spec)) : spec = .terminal (.text captures.consumed) state := by
  obtain ⟨rule, hfirst, -, hbuilt⟩ := exists_rule_of_buildFirst h
  obtain ⟨hmem, -⟩ := mem_of_matchFirst hfirst
  obtain ⟨pattern, -, rfl⟩ := List.mem_map.1 hmem
  exact (Except.ok.inj hbuilt).symm

theorem keepsToWindow_text (patterns : List Pattern) :
    ∀ rule ∈ (patterns.map Rule.text : List (Rule R T S)), rule.KeepsToWindow := by
  intro rule hrule
  obtain ⟨pattern, -, rfl⟩ := List.mem_map.1 hrule
  exact Rule.keepsToWindow_matching _ _

/-- With rules for plain text only, a parse never comes to an empty span. -/
theorem not_stopsEarly_text (patterns : List Pattern) (source : String) (state : S) :
    ¬ StopsEarly (patterns.map Rule.text : List (Rule R T S)) source state := by
  rintro ⟨n, machine, hreach, item, pending, hpending, hempty⟩
  suffices ∀ item ∈ machine.pending, item.range.isEmpty = false by
    rw [this item (by simp [hpending])] at hempty
    cases hempty
  refine hreach.invariant (P := fun machine => ∀ item ∈ machine.pending, item.range.isEmpty = false)
    ?_ fun item hitem => ?_
  · intro machine machine' hstep hnonempty
    obtain ⟨item, pending, window, captures, spec, hpending, -, hwindow, hbuild, -, hpending', -⟩ :=
      step_running_cases hstep
    obtain rfl := spec_of_buildFirst_text hbuild
    have hsize := (over_of_buildFirst (keepsToWindow_text patterns) hbuild).size_le
    have hbytes := Text.utf8ByteSize_of_slice? hwindow
    rw [hpending] at hnonempty
    rw [hpending', Spec.terminal, Pending.following_none]
    refine List.forall_mem_append.2 ⟨fun entry hentry => ?_, (List.forall_mem_cons.1 hnonempty).2⟩
    exact isEmpty_of_mem_rest (by omega) hentry
  · rw [Machine.start] at hitem
    dsimp only at hitem
    split_ifs at hitem with hsource
    · cases hitem
    · obtain rfl := List.mem_singleton.1 hitem
      simpa using isEmpty_range_of_ne_empty 0 (by simpa using hsource)

/-! ### Whole parses -/

/-- `below` holds for each node the nodes that were attached to it, in order and completed. -/
def Attached (found : List (Match R T S)) (below : Nat → List (Node R T)) : Prop :=
  ∀ parent, below parent =
    (matchesUnder found parent).map fun item => item.spec.root.addChildren (below item.id)

/-- The matches of a parse tile its source and the spans that the rules have asked for, and the
nodes attached at the matches make up the forest. -/
structure Tiles (found : List (Match R T S)) (source : String) (forest : List (Node R T)) :
    Prop where
  exists_attached : ∃ below, Attached found below ∧ below Arena.root = forest
  top : Tiling 0 source (matchesUnder found Arena.root)
  inner : ∀ item ∈ found, ∀ span, item.spec.span = some span →
    ∃ inner, Text.slice? item.window span = some inner ∧
      Tiling (item.offset + span.start) inner (matchesUnder found item.id)

/-- Once nothing is pending, the matches tile what has been parsed. -/
theorem History.tiles (hrules : ∀ rule ∈ rules, rule.KeepsToWindow) {state : S}
    (hstop : ¬ StopsEarly rules source state) {found : List (Match R T S)}
    {machine : Machine R T S} (h : History rules source state found machine)
    (hpending : machine.pending = []) : Tiles found source machine.arena.finish where
  exists_attached := by
    obtain ⟨below, hroot, hbelow⟩ := h.exists_children
    exact ⟨below, hbelow, hroot⟩
  top := by
    obtain ⟨text, hslice, htiling⟩ := h.tiling hrules hpending List.mem_cons_self
      (.inl (Text.isBoundary_zero source))
    obtain rfl : source = text := Option.some.inj ((Text.slice?_self source).symm.trans hslice)
    exact htiling
  inner := by
    intro item hitem span hspan
    have hwanted : item.wanted? = some (span.shift item.offset) := by
      rw [Match.wanted?, hspan, Option.map_some]
    have hlevel : (item.id, span.shift item.offset) ∈ levels source found :=
      List.mem_cons_of_mem _ (List.mem_filterMap.2 ⟨item, hitem, by rw [hwanted, Option.map_some]⟩)
    obtain ⟨text, hslice, htiling⟩ := h.tiling hrules hpending hlevel
      (.inr (h.isEmpty_wanted hstop hitem hwanted))
    obtain ⟨-, before, after, -, hmakes⟩ := h.exists_makes_of_mem hitem
    have hfits := hmakes.fits
    rw [hspan, Option.all_some, fitsWindow, Bool.and_eq_true, decide_eq_true_eq,
      decide_eq_true_eq] at hfits
    refine ⟨text, (Text.slice?_shift hmakes.slice?_eq hfits.2).symm.trans hslice, ?_⟩
    rw [Nat.add_comm]
    exact htiling

/-- In a parse that succeeds and does not come to an empty span, the matches tile the source. -/
theorem exists_tiles (hrules : ∀ rule ∈ rules, rule.KeepsToWindow) {state : S} {bound : Nat}
    {forest : List (Node R T)}
    (hrun : (run rules source bound (.start source state)).value = .ok forest)
    (hstop : ¬ StopsEarly rules source state) :
    ∃ found final, History rules source state found final ∧ final.pending = [] ∧
      Tiles found source forest := by
  obtain ⟨n, final, hreach, rfl, hend⟩ := exists_reaches_of_run hrun
  have hpending : final.pending = [] := hend.resolve_right fun hempty =>
    hstop ⟨n, final, hreach, hempty⟩
  obtain ⟨found, hfound⟩ := exists_history hreach
  exact ⟨found, final, hfound, hpending, hfound.tiles hrules hstop hpending⟩

/-- Rules for plain text keep the source. -/
theorem textContent_of_run_text {patterns : List Pattern} {state : S} {bound : Nat}
    {forest : List (Node R T)}
    (hrun : (run (patterns.map Rule.text) source bound (.start source state)).value = .ok forest) :
    Forest.textContent forest = source := by
  obtain ⟨found, final, hfound, -, htiles⟩ :=
    exists_tiles (keepsToWindow_text patterns) hrun (not_stopsEarly_text patterns source state)
  obtain ⟨below, hbelow, rfl⟩ := htiles.exists_attached
  have htext : ∀ item ∈ matchesUnder found Arena.root,
      (item.spec.root.addChildren (below item.id)).textContent = item.consumed := by
    intro item hitem
    obtain ⟨-, before, after, -, hmakes⟩ :=
      hfound.exists_makes_of_mem (List.mem_filter.1 hitem).1
    rw [spec_of_buildFirst_text hmakes.build_eq]
    rfl
  rw [hbelow, Forest.textContent_eq_join, List.map_map, ← htiles.top.join_consumed]
  exact congrArg _ (List.map_congr_left htext)

/-- The matches of a parse tile its source.  In every parse that succeeds and does not come to an
empty span, the matches at the top put together the source, and the matches under each node put
together the span that its rule has asked for.  Rules for plain text keep the whole source. -/
theorem run_tiles :
    (∀ {rules : List (Rule R T S)} {source : String} {state : S} {bound : Nat}
        {forest : List (Node R T)}, (∀ rule ∈ rules, rule.KeepsToWindow) →
      (run rules source bound (.start source state)).value = .ok forest →
      ¬ StopsEarly rules source state →
      ∃ found final, History rules source state found final ∧ final.pending = [] ∧
        Tiles found source forest) ∧
      ∀ {patterns : List Pattern} {source : String} {state : S} {bound : Nat}
        {forest : List (Node R T)},
        (run (patterns.map Rule.text) source bound (.start source state)).value = .ok forest →
        Forest.textContent forest = source :=
  ⟨fun hrules hrun hstop => exists_tiles hrules hrun hstop, textContent_of_run_text⟩

theorem eq_ok_of_toOption {ε α : Type} {result : Except ε α} {value : α}
    (h : result.toOption = some value) : result = .ok value := by
  cases result with
  | error error => cases h
  | ok value' => rw [Option.some.inj h]

/-- Bold text and plain text. -/
def boldRules : List (Rule Unit Unit Unit) := [.style Inline.bold [], .text Inline.text]

theorem accounts_of_mem_boldRules :
    ∀ rule ∈ boldRules, rule.Accounts (.markup Unit Unit False) := by
  intro rule hrule
  simp only [boldRules, List.mem_cons, List.not_mem_nil, or_false] at hrule
  rcases hrule with rfl | rfl
  · exact Inline.accounts_styleRule (by simp) _
  · exact Inline.accounts_textRule False

/-- The matches of a text with a bold word in it. -/
theorem run_tiles_bold :
    (∃ forest, Forest.size forest = 4 ∧
      (run boldRules "a **b** c" 8 (.start "a **b** c" ())).value = .ok forest ∧
      ∃ found final, History boldRules "a **b** c" () found final ∧ final.pending = [] ∧
        Tiles found "a **b** c" forest) ∧
      ∃ forest : List (Node Unit Unit),
        (run ([Inline.text].map Rule.text) "a-b" 4 (.start "a-b" ())).value = .ok forest ∧
        Forest.textContent forest = "a-b" := by
  have hkeeps := keepsToWindow_of_accounts accounts_of_mem_boldRules
  have hstop := not_stopsEarly accounts_of_mem_boldRules (fun hpart => hpart.1) "a **b** c" ()
  have hbold : (run boldRules "a **b** c" 8 (.start "a **b** c" ())).value.toOption.any
      (Forest.size · = 4) = true := by decide +kernel
  have htext : (run ([Inline.text].map Rule.text) "a-b" 4
      (.start "a-b" () : Machine Unit Unit Unit)).value.toOption.isSome = true := by decide +kernel
  obtain ⟨forest, hforest, hsize⟩ := (Option.any_eq_true _ _).1 hbold
  obtain ⟨plain, hplain⟩ := Option.isSome_iff_exists.1 htext
  have hrun := eq_ok_of_toOption hforest
  have hrun' := eq_ok_of_toOption hplain
  exact ⟨⟨forest, of_decide_eq_true hsize, hrun, run_tiles.1 hkeeps hrun hstop⟩,
    plain, hrun', run_tiles.2 hrun'⟩

end RuledMarkup
