import RuledMarkup.Proofs.Pattern.Consumed

/-!
# The ranges of groups

Captures come from a match, or they are made of ranges chosen by hand that are checked.  Either way
the groups have ranges of the input, so that reading a group never leaves the input.

## Main definitions

* `Captures.Ranged` : the groups have ranges of the input, and group zero starts with it.
* `Captures.Obtained` : captures of a match, or made by hand.
* `Captures.Lacks` : a group that took no part in the match, or that is none.

## Main results

* `Captures.ofGroups?_eq_some_iff` : ranges chosen by hand are accepted if they are of the input.
* `Captures.Obtained.over` : captures are over the input that they are obtained from.
* `Captures.groups_read_as_slices` : what is read from captures.
-/

namespace RuledMarkup.Captures

open Text (ByteRange isBoundary isSome_slice?_iff le_of_isBoundary slice? slice_of_slice?)

/-- The groups have ranges of the input, in order and between characters, and group zero starts at
the first byte. -/
structure Ranged (input : String) (groups : List (Option ByteRange)) : Prop where
  start_eq : ∀ r, groups[0]? = some (some r) → r.start = 0
  inInput : ∀ r, some r ∈ groups → r.start ≤ r.stop ∧ r.stop ≤ input.utf8ByteSize ∧
    isBoundary input r.start = true ∧ isBoundary input r.stop = true

/-- The captures are those of a match of the input, or they are made of ranges chosen by hand. -/
inductive Obtained (input : String) : Captures → Prop
  | matched {pattern : Pattern} {captures : Captures}
      (h : pattern.matchStart input = some captures) : Obtained input captures
  | made {groups : List (Option ByteRange)} {captures : Captures}
      (h : ofGroups? input groups = some captures) : Obtained input captures

/-- The group took no part in the match, or there is no such group. -/
def Lacks (captures : Captures) (group : Nat) : Prop :=
  captures.groups.length ≤ group ∨ captures.groups[group]? = some none

variable {captures : Captures} {input : String} {groups : List (Option ByteRange)} {group : Nat}
  {r : ByteRange}

/-! ### Ranges -/

theorem isSome_slice?_iff_inInput :
    (slice? input r).isSome = true ↔ r.start ≤ r.stop ∧ r.stop ≤ input.utf8ByteSize ∧
      isBoundary input r.start = true ∧ isBoundary input r.stop = true := by
  rw [isSome_slice?_iff]
  exact ⟨fun ⟨horder, hstart, hstop⟩ => ⟨horder, le_of_isBoundary hstop, hstart, hstop⟩,
    fun ⟨horder, _, hstart, hstop⟩ => ⟨horder, hstart, hstop⟩⟩

theorem range?_eq_some_iff : captures.range? group = some r ↔
    captures.groups[group]? = some (some r) := by
  rw [range?, Option.bind_eq_some_iff]
  simp

theorem range?_eq_none_iff : captures.range? group = none ↔ captures.Lacks group := by
  rw [range?, Lacks, ← List.getElem?_eq_none_iff]
  cases captures.groups[group]? <;> simp

/-- Captures are over an input if they have ranges of it. -/
theorem over_iff_ranged :
    captures.Over input ↔ captures.input = input ∧ Ranged input captures.groups := by
  constructor
  · intro h
    refine ⟨h.input_eq, fun r hr => h.start_eq (range?_eq_some_iff.2 hr), fun r hr => ?_⟩
    obtain ⟨group, hgroup⟩ := List.mem_iff_getElem?.1 hr
    exact isSome_slice?_iff_inInput.1 (h.isSome_slice? (range?_eq_some_iff.2 hgroup))
  · rintro ⟨hinput, hranged⟩
    refine ⟨hinput, fun hr => hranged.start_eq _ (range?_eq_some_iff.1 hr), fun hr => ?_⟩
    exact isSome_slice?_iff_inInput.2
      (hranged.inInput _ (List.mem_of_getElem? (range?_eq_some_iff.1 hr)))

/-- Ranges chosen by hand are accepted if they are ranges of the input. -/
theorem ofGroups?_eq_some_iff :
    ofGroups? input groups = some captures ↔
      captures = ⟨input, groups⟩ ∧ Ranged input groups := by
  have hzero : ((groups.head?.bind id).all fun r => r.start = 0) = true ↔
      ∀ r, groups[0]? = some (some r) → r.start = 0 := by
    simp only [Option.all_eq_true, decide_eq_true_eq, List.head?_eq_getElem?,
      Option.bind_eq_some_iff, id_eq, exists_eq_right]
  have hall : (groups.all fun group => group.all fun r => (slice? input r).isSome) = true ↔
      ∀ r, some r ∈ groups → (slice? input r).isSome = true := by
    simp only [List.all_eq_true, Option.all_eq_true]
    exact ⟨fun h r hr => h _ hr r rfl, fun h group hgroup r hr => h r (hr ▸ hgroup)⟩
  have hranged : Ranged input groups ↔ (∀ r, groups[0]? = some (some r) → r.start = 0) ∧
      ∀ r, some r ∈ groups → (slice? input r).isSome = true := by
    simp only [isSome_slice?_iff_inInput]
    exact ⟨fun h => ⟨h.start_eq, h.inInput⟩, fun h => ⟨h.1, h.2⟩⟩
  rw [hranged, ← hzero, ← hall, ← Bool.and_eq_true, ofGroups?, Option.ite_none_right_eq_some,
    Option.some.injEq, and_comm, eq_comm]

theorem ofGroups?_eq_none_iff : ofGroups? input groups = none ↔ ¬Ranged input groups := by
  rw [Option.eq_none_iff_forall_ne_some]
  exact ⟨fun h hranged => h _ (ofGroups?_eq_some_iff.2 ⟨rfl, hranged⟩),
    fun h _ hsome => h (ofGroups?_eq_some_iff.1 hsome).2⟩

theorem Obtained.over (h : Obtained input captures) : captures.Over input := by
  cases h with
  | matched h => exact Pattern.over_of_matchStart h
  | made h =>
    obtain ⟨rfl, hranged⟩ := ofGroups?_eq_some_iff.1 h
    exact over_iff_ranged.2 ⟨rfl, hranged⟩

/-! ### Reading groups -/

/-- What is read from a group that took part in the match. -/
theorem Over.group_of_present (h : captures.Over input)
    (hpresent : captures.groups[group]? = some (some r)) :
    ∃ text, slice? input r = some text ∧ captures.text? group = some text ∧
      captures.span group = .ok r ∧ captures.group group = .ok text := by
  have hrange : captures.range? group = some r := range?_eq_some_iff.2 hpresent
  obtain ⟨text, htext⟩ := Option.isSome_iff_exists.1 (h.isSome_slice? hrange)
  have hspan : captures.span group = .ok r := by rw [span, hrange]
  have hslice : Text.slice captures.input r = text := by rw [h.input_eq, slice_of_slice? htext]
  refine ⟨text, htext, ?_, hspan, ?_⟩
  · rw [text?, hrange, Option.map_some, hslice]
  · rw [Captures.group, hspan, Except.map, hslice]

/-- What is read from a group that is lacking. -/
theorem group_of_lacks (h : captures.Lacks group) :
    captures.text? group = none ∧
      captures.span group = .error (.missingGroup group captures.consumed) ∧
      captures.group group = .error (.missingGroup group captures.consumed) := by
  have hrange := range?_eq_none_iff.2 h
  have hspan : captures.span group = .error (.missingGroup group captures.consumed) := by
    rw [span, hrange]
  refine ⟨?_, hspan, ?_⟩
  · rw [text?, hrange, Option.map_none]
  · rw [Captures.group, hspan, Except.map]

/-- A group is lacking or has a range. -/
theorem lacks_or_present (captures : Captures) (group : Nat) :
    captures.Lacks group ∨ ∃ r, captures.groups[group]? = some (some r) := by
  cases hrange : captures.range? group with
  | none => exact .inl (range?_eq_none_iff.1 hrange)
  | some r => exact .inr ⟨r, range?_eq_some_iff.1 hrange⟩

/-- The groups of captures that are obtained from an input have ranges of this input.  What has been
consumed is a slice of it, and so is the text of each group that has a range; a group is reported as
missing just if it is lacking.  Ranges chosen by hand are refused just if they are not ranges of the
input, and otherwise they are the groups. -/
theorem groups_read_as_slices :
    (∀ input captures, Obtained input captures →
      captures.input = input ∧ Ranged input captures.groups ∧
      slice? input ⟨0, captures.size⟩ = some captures.consumed ∧
      ∀ group,
        (∀ r, captures.groups[group]? = some (some r) →
          ∃ text, slice? input r = some text ∧ captures.text? group = some text ∧
            captures.span group = .ok r ∧ captures.group group = .ok text) ∧
        (captures.text? group = none ↔ captures.Lacks group) ∧
        (captures.span group = .error (.missingGroup group captures.consumed) ↔
          captures.Lacks group) ∧
        (captures.group group = .error (.missingGroup group captures.consumed) ↔
          captures.Lacks group)) ∧
    ∀ input groups, (ofGroups? input groups = none ↔ ¬Ranged input groups) ∧
      ∀ captures, ofGroups? input groups = some captures → captures = ⟨input, groups⟩ := by
  refine ⟨fun input captures hobtained => ?_, fun input groups =>
    ⟨ofGroups?_eq_none_iff, fun captures h => (ofGroups?_eq_some_iff.1 h).1⟩⟩
  have hover := hobtained.over
  obtain ⟨hinput, hranged⟩ := over_iff_ranged.1 hover
  refine ⟨hinput, hranged, ?_, fun group => ⟨fun r => hover.group_of_present, ?_⟩⟩
  · simpa using hover.slice?_consumed (Text.slice?_self input)
  · rcases captures.lacks_or_present group with hlacks | ⟨r, hpresent⟩
    · obtain ⟨htext, hspan, hgroup⟩ := group_of_lacks hlacks
      exact ⟨iff_of_true htext hlacks, iff_of_true hspan hlacks, iff_of_true hgroup hlacks⟩
    · have hnot : ¬captures.Lacks group := by
        rw [← range?_eq_none_iff, range?_eq_some_iff.2 hpresent]
        exact nofun
      obtain ⟨text, -, htext, hspan, hgroup⟩ := hover.group_of_present hpresent
      rw [htext, hspan, hgroup]
      exact ⟨iff_of_false nofun hnot, iff_of_false nofun hnot, iff_of_false nofun hnot⟩

/-- A group of one character is read, groups without a range are missing, and a range that ends
within the character is refused. -/
theorem groups_read_as_slices_two_bytes :
    let captures : Captures := ⟨"(é)", [some ⟨0, 4⟩, none, some ⟨1, 3⟩]⟩
    Obtained "(é)" captures ∧ captures.groups[2]? = some (some ⟨1, 3⟩) ∧
      captures.group 2 = .ok "é" ∧
      captures.span 1 = .error (.missingGroup 1 captures.consumed) ∧
      captures.group 3 = .error (.missingGroup 3 captures.consumed) ∧
      ofGroups? "(é)" [some ⟨0, 2⟩] = none := by
  intro captures
  have hmade : ofGroups? "(é)" [some ⟨0, 4⟩, none, some ⟨1, 3⟩] = some captures := by
    decide +kernel
  have hobtained : Obtained "(é)" captures := .made hmade
  obtain ⟨-, -, -, hgroups⟩ := groups_read_as_slices.1 _ _ hobtained
  obtain ⟨text, hslice, -, -, hgroup⟩ := (hgroups 2).1 ⟨1, 3⟩ rfl
  have htext : slice? "(é)" ⟨1, 3⟩ = some "é" := by decide +kernel
  obtain rfl : text = "é" := Option.some.inj (hslice.symm.trans htext)
  refine ⟨hobtained, rfl, hgroup, (hgroups 1).2.2.1.2 (.inr rfl),
    (hgroups 3).2.2.2.2 (.inl (Nat.le_refl _)), ?_⟩
  refine (groups_read_as_slices.2 _ _).1.2 fun h => ?_
  have := (h.inInput ⟨0, 2⟩ List.mem_cons_self).2.2.2
  revert this
  decide +kernel

end RuledMarkup.Captures
