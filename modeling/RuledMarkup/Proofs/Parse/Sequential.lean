import RuledMarkup.Proofs.Parse.LineStarts

/-!
# Parsing piece by piece

With rules that ask for no spans a parse goes through its source piece by piece: each match begins
where the one before has ended, and its window is the whole rest of the source.  So what a rule
cannot see, the text before its window, is known from where the rules stop.

## Main definitions

* `Rule.StopsAt` : a rule asks for no span and stops at certain places only.
* `Machine.AtStop` : the invariant of a parse.

## Main results

* `Machine.AtStop.step` : a step keeps the invariant.
* `exists_before_of_madeBy` : every match begins where rules stop.
-/

namespace RuledMarkup

open Text (byteSize)

variable {R T S : Type} {rules : List (Rule R T S)} {source : String} {state : S}
  {stop : Option Char → List Char → Prop}

/-- The rule consumes some text and asks for no span.  The place where it stops, given by the last
character that it has consumed and the text after that, is one of certain places. -/
structure Rule.StopsAt (rule : Rule R T S) (stop : Option Char → List Char → Prop) : Prop where
  exists_after : ∀ {window last state captures},
    rule.tryMatch window last state = some captures →
      captures.consumed ≠ "" ∧ ∃ after, window.toList = captures.consumed.toList ++ after ∧
        stop captures.consumed.toList.getLast? after
  span_eq_none : ∀ {captures state spec}, (rule.build captures state).value = .ok spec →
    spec.span = none

/-- Nothing is pending but the rest of the source from one of the places on. -/
def Machine.AtStop (source : String) (stop : Option Char → List Char → Prop)
    (machine : Machine R T S) : Prop :=
  ∀ item pending, machine.pending = item :: pending → pending = [] ∧
    ∃ before after, source.toList = before ++ after ∧ stop before.getLast? after ∧
      item.range = ⟨byteSize before, source.utf8ByteSize⟩

theorem Machine.AtStop.start (hstart : stop none source.toList) :
    (Machine.start source state : Machine R T S).AtStop source stop := by
  intro item pending hpending
  rw [Machine.start] at hpending
  dsimp only at hpending
  split_ifs at hpending
  obtain ⟨rfl, rfl⟩ := List.cons.inj hpending
  exact ⟨rfl, [], source.toList, rfl, hstart, rfl⟩

/-- The window of a match is the rest of the source. -/
theorem Machine.AtStop.exists_before {machine machine' : Machine R T S} {found : Match R T S}
    (h : machine.AtStop source stop) (hmakes : machine.Makes rules source found machine') :
    ∃ before, source.toList = before ++ found.window.toList ∧
      stop before.getLast? found.window.toList ∧
      found.item.range = ⟨byteSize before, source.utf8ByteSize⟩ := by
  obtain ⟨pending, hpending, -⟩ := hmakes.pending_eq
  obtain ⟨-, before, after, hsource, hstop, hrange⟩ := h _ _ hpending
  have hslice := Text.slice?_of_toList (s := source) (a := before) (t := after) (b := [])
    (by simpa using hsource)
  have hbytes : byteSize before + byteSize after = source.utf8ByteSize := by
    rw [← Text.byteSize_append, ← hsource, Text.byteSize_toList]
  rw [hbytes, ← hrange, hmakes.slice?_eq] at hslice
  obtain rfl : found.window.toList = after := by
    rw [Option.some.inj hslice, String.toList_ofList]
  exact ⟨before, hsource, hstop, hrange⟩

/-- A step keeps the invariant. -/
theorem Machine.AtStop.step {machine machine' : Machine R T S} {found : Match R T S}
    {rule : Rule R T S} {last : Option String} (h : machine.AtStop source stop)
    (hmakes : machine.Makes rules source found machine') (hrule : rule.StopsAt stop)
    (hmatch : rule.tryMatch found.window last found.state = some found.captures)
    (hbuilt : (rule.build found.captures found.state).value = .ok found.spec)
    (hover : found.captures.Over found.window) : machine'.AtStop source stop := by
  obtain ⟨before, hsource, -, hrange⟩ := h.exists_before hmakes
  obtain ⟨hne, after, hwindow, hstop⟩ := hrule.exists_after hmatch
  obtain ⟨pending, hpending, hpending'⟩ := hmakes.pending_eq
  obtain ⟨rfl, -⟩ := h _ _ hpending
  rw [hrule.span_eq_none hbuilt, Pending.following_none, Pending.rest, List.append_nil] at hpending'
  intro item pending hitem
  rw [hpending'] at hitem
  split_ifs at hitem
  obtain ⟨rfl, rfl⟩ := List.cons.inj hitem
  refine ⟨rfl, before ++ found.captures.consumed.toList, after, ?_, ?_, ?_⟩
  · rw [hsource, hwindow, List.append_assoc]
  · rwa [List.getLast?_append_of_ne_nil _ (by simpa using hne)]
  · rw [hrange, Text.byteSize_append, Text.byteSize_toList, hover.utf8ByteSize_consumed]

/-! ### Runs -/

variable (hkeeps : ∀ rule ∈ rules, rule.KeepsToWindow) (hrules : ∀ rule ∈ rules, rule.StopsAt stop)
  (hstart : stop none source.toList)

include hkeeps hrules hstart

theorem Reaches.atStop {n : Nat} {machine : Machine R T S}
    (h : Reaches rules source n (.start source state) machine) : machine.AtStop source stop := by
  refine h.invariant (P := fun machine => machine.AtStop source stop) ?_ (.start hstart)
  intro machine machine' hstep hat
  obtain ⟨found, hmakes⟩ := exists_makes hstep
  obtain ⟨rule, hmem, -, hmatch, hbuilt⟩ := hmakes.exists_rule
  exact hat.step hmakes (hrules rule hmem) hmatch hbuilt (hkeeps rule hmem hmatch)

/-- Every match begins at the start of the source, or where rules stop. -/
theorem exists_before_of_madeBy {found : Match R T S} {rule : Rule R T S}
    (hmade : found.MadeBy rules source state rule) :
    ∃ before, source.toList = before ++ found.window.toList ∧ byteSize before = found.offset ∧
      stop before.getLast? found.window.toList := by
  obtain ⟨n, machine, machine', hreach, hmakes, -⟩ := hmade
  obtain ⟨before, hsource, hstop, hrange⟩ :=
    (hreach.atStop hkeeps hrules hstart).exists_before hmakes
  exact ⟨before, hsource, (congrArg Text.ByteRange.start hrange).symm, hstop⟩

end RuledMarkup
