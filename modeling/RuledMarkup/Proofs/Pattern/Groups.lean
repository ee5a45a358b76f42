import RuledMarkup.Proofs.Pattern.Consumed

/-!
# Groups in what a pattern consumes

What a match consumes, in terms of its groups: how a group stands between two other texts, and how
groups follow each other.  Each of these facts is a property of the written pattern that is decided
by evaluation.

## Main definitions

* `Captures.Frames` : a group stands between two texts in what a match consumes.
* `Pattern.isFramed` : a group stands between parts that read certain characters only.
* `Pattern.Piece` : a character, or the text of a group.
* `Pattern.isTiled` : a pattern reads certain sequences of pieces.

## Main results

* `Pattern.Consumed.size_pos` : something is consumed.
* `Pattern.Consumed.exists_frames` : a framed group stands between certain characters.
* `Pattern.exists_pieces_of_isTiled` : what is consumed is put together from its pieces.
-/

namespace RuledMarkup

open Text (byteSize)

namespace Captures

variable {captures : Captures} {window : String}

theorem span_of_range? {group : Nat} {range : Text.ByteRange}
    (h : captures.range? group = some range) : captures.span group = .ok range := by
  rw [span, h]

theorem range?_of_span {group : Nat} {range : Text.ByteRange}
    (h : captures.span group = .ok range) : captures.range? group = some range := by
  cases hrange : captures.range? group with
  | none => simp [span, hrange] at h
  | some range' => rw [Except.ok.inj ((span_of_range? hrange).symm.trans h)]

theorem group_of_range? {group : Nat} {range : Text.ByteRange}
    (h : captures.range? group = some range) :
    captures.group group = .ok (Text.slice captures.input range) := by
  rw [Captures.group, span_of_range? h]
  rfl

/-- A group stands between two texts in what a match consumes. -/
structure Frames (captures : Captures) (group : Nat) (before inner after : List Char) : Prop where
  toList_consumed : captures.consumed.toList = before ++ inner ++ after
  range?_eq : captures.range? group = some ⟨byteSize before, byteSize (before ++ inner)⟩

namespace Frames

variable {group : Nat} {before inner after : List Char}

/-- The text of the group. -/
theorem slice?_eq (h : captures.Frames group before inner after) (hover : captures.Over window) :
    Text.slice? window ⟨byteSize before, byteSize (before ++ inner)⟩ =
      some (String.ofList inner) := by
  obtain ⟨rest, hwindow, -, -⟩ := hover.split
  rw [Text.byteSize_append]
  refine Text.slice?_of_toList (b := after ++ rest.toList) ?_
  rw [hwindow, String.toList_append, h.toList_consumed, List.append_assoc]

theorem group_eq (h : captures.Frames group before inner after) (hover : captures.Over window) :
    captures.group group = .ok (String.ofList inner) := by
  rw [group_of_range? h.range?_eq, hover.input_eq, Text.slice_of_slice? (h.slice?_eq hover)]

theorem text?_eq (h : captures.Frames group before inner after) (hover : captures.Over window) :
    captures.text? group = some (String.ofList inner) := by
  rw [Captures.text?, h.range?_eq, hover.input_eq, Option.map_some,
    Text.slice_of_slice? (h.slice?_eq hover)]

/-- The group has fewer bytes than what is consumed, if something stands around it. -/
theorem utf8ByteSize_lt (h : captures.Frames group before inner after)
    (hover : captures.Over window) (haround : before ++ after ≠ []) :
    (String.ofList inner).utf8ByteSize < captures.size := by
  have hpos : byteSize (before ++ after) ≠ 0 := fun hzero =>
    haround (Text.byteSize_eq_zero_iff.1 hzero)
  have hsize : captures.size = byteSize (before ++ inner ++ after) := by
    rw [← hover.utf8ByteSize_consumed, ← h.toList_consumed, Text.byteSize_toList]
  simp only [Text.byteSize_append] at hpos hsize
  have : (String.ofList inner).utf8ByteSize = byteSize inner := rfl
  omega

end Frames

end Captures

namespace Pattern

variable {pattern : Pattern} {window : String} {captures : Captures} {parts : List Regex}
  {bindings : Bindings} {group : Nat}

/-! ### What is decided by the parts -/

/-- Parts of which one uses up a character consume something. -/
theorem Consumed.size_pos (h : pattern.Consumed window captures parts bindings)
    (hparts : parts.any (·.isNonempty) = true) : 0 < captures.size := by
  obtain ⟨post, -, hreads⟩ := h.reads
  have hne := Regex.ne_nil_of_any_isNonempty hparts hreads
  rw [← h.captures_over.utf8ByteSize_consumed, Nat.pos_iff_ne_zero]
  intro hzero
  rw [String.utf8ByteSize_eq_zero_iff.1 hzero] at hne
  exact hne rfl

/-- Does every match consume something? -/
def isAdvancing (pattern : Pattern) : Bool :=
  pattern.isCut && pattern.regex.strands.all fun strand =>
    (pattern.consuming strand).any (·.isNonempty)

theorem size_pos_of_isAdvancing (hpattern : pattern.isAdvancing = true)
    (h : pattern.matchStart window = some captures) : 0 < captures.size := by
  obtain ⟨hcut, hstrands⟩ := Bool.and_eq_true_iff.1 hpattern
  obtain ⟨strand, hmem, bindings, hconsumed⟩ := exists_consumed hcut h
  exact hconsumed.size_pos (List.all_eq_true.1 hstrands strand hmem)

theorem consumed_ne_empty (hpattern : pattern.isAdvancing = true)
    (h : pattern.matchStart window = some captures) : captures.consumed ≠ "" := by
  have hsize := size_pos_of_isAdvancing hpattern h
  rw [← (over_of_matchStart h).utf8ByteSize_consumed] at hsize
  intro hempty
  simp [hempty] at hsize

/-- Does a group take part in every match? -/
def hasGroup (pattern : Pattern) (group : Nat) : Bool :=
  pattern.isCut && group ≠ 0 && pattern.ahead? ≠ some group &&
    pattern.regex.strands.all fun strand =>
      (pattern.consuming strand).any (·.takesPart group)

theorem exists_range?_of_hasGroup (hpattern : pattern.hasGroup group = true)
    (h : pattern.matchStart window = some captures) :
    ∃ range, captures.range? group = some range := by
  simp only [hasGroup, Bool.and_eq_true, decide_eq_true_eq] at hpattern
  obtain ⟨⟨⟨hcut, hgroup⟩, hahead⟩, hstrands⟩ := hpattern
  obtain ⟨strand, hmem, bindings, hconsumed⟩ := exists_consumed hcut h
  obtain ⟨post, -, hreads⟩ := hconsumed.reads
  rw [hconsumed.range?_eq hgroup hahead]
  exact Option.isSome_iff_exists.1
    (Regex.isSome_lookup (List.all_eq_true.1 hstrands strand hmem) hreads)

/-! ### Framed groups -/

/-- The parts before a group. -/
def beforeGroup (group : Nat) (parts : List Regex) : List Regex :=
  parts.takeWhile fun r => !r.isGroup group

/-- The group and the parts after it. -/
def fromGroup (group : Nat) (parts : List Regex) : List Regex :=
  parts.dropWhile fun r => !r.isGroup group

/-- Does a group that is found once stand between parts that read certain characters only, and at
least one of them? -/
def isFramed (chars : List Char) (group : Nat) (parts : List Regex) : Bool :=
  let before := beforeGroup group parts
  match fromGroup group parts with
  | [] => false
  | _ :: after =>
    before.all (·.isWithin chars) && after.all (·.isWithin chars) &&
      (before ++ after).any (·.isNonempty) && group ∉ Regex.indicesEach after

/-- Does a group read a character whenever it is there? -/
def isFilled (group : Nat) (parts : List Regex) : Bool :=
  parts.all fun r => !r.isGroup group || r.isNonempty

/-- The parts are those before a group, the group and those after it. -/
theorem exists_eq_append_of_fromGroup {r : Regex} {after : List Regex}
    (h : fromGroup group parts = r :: after) :
    ∃ name inner, r = .group group name inner ∧ parts = beforeGroup group parts ++ r :: after := by
  have hgroup := List.head?_dropWhile_not (fun r : Regex => !r.isGroup group) parts
  have hparts : parts = beforeGroup group parts ++ r :: after := by
    rw [← h, beforeGroup, fromGroup, List.takeWhile_append_dropWhile]
  rw [fromGroup] at h
  rw [h] at hgroup
  cases r with
  | group index name inner =>
    obtain rfl : index = group := by simpa [Regex.isGroup] using hgroup
    exact ⟨name, inner, rfl, hparts⟩
  | _ => simp [Regex.isGroup] at hgroup

theorem exists_eq_append_of_isFramed {chars : List Char} (h : isFramed chars group parts = true) :
    ∃ before name r after, parts = before ++ .group group name r :: after ∧
      before.all (·.isWithin chars) = true ∧ after.all (·.isWithin chars) = true ∧
      (before ++ after).any (·.isNonempty) = true ∧ group ∉ Regex.indicesEach after := by
  cases hrest : fromGroup group parts with
  | nil => simp [isFramed, hrest] at h
  | cons r after =>
    simp only [isFramed, hrest, Bool.and_eq_true, decide_eq_true_eq] at h
    obtain ⟨⟨⟨hbefore, hafter⟩, hany⟩, hnot⟩ := h
    obtain ⟨name, inner, rfl, hparts⟩ := exists_eq_append_of_fromGroup hrest
    exact ⟨_, name, inner, after, hparts, hbefore, hafter, hany, hnot⟩

/-- A group that is one of the parts stands between what the other parts read. -/
theorem Consumed.exists_frames_of_eq (h : pattern.Consumed window captures parts bindings)
    {before after : List Regex} {name : Option String} {r : Regex}
    (hparts : parts = before ++ .group group name r :: after)
    (hnot : group ∉ Regex.indicesEach after) (hgroup : group ≠ 0)
    (hahead : pattern.ahead? ≠ some group) :
    ∃ u v w post bu bv bw, captures.Frames group u v w ∧
      Regex.ReadsEach before [] u (v ++ w ++ post) bu ∧
      (Regex.group group name r).Reads u v (w ++ post) bv ∧
      Regex.ReadsEach after (u ++ v) w post bw := by
  subst hparts
  obtain ⟨post, -, hreads⟩ := h.reads
  rw [Regex.readsEach_append] at hreads
  obtain ⟨u, _, bu, _, htext, hbindings, hu, v, w, _, bw, rfl, rfl, ⟨inner, rfl, hv⟩, hw⟩ := hreads
  refine ⟨u, v, w, post, bu, _, bw, ⟨by simpa using htext, ?_⟩, hu, ⟨inner, rfl, hv⟩, hw⟩
  rw [h.range?_eq hgroup hahead, hbindings]
  simp [List.lookup_append, Regex.lookup_eq_none hw hnot]

/-- A part that uses up a character does so in a group as well. -/
theorem ne_nil_of_isFilled (hfilled : isFilled group parts = true) {name : Option String}
    {r : Regex} (hmem : .group group name r ∈ parts) {pre word post : List Char}
    (hreads : (Regex.group group name r).Reads pre word post bindings) : word ≠ [] := by
  have hr : (Regex.group group name r).isNonempty = true := by
    simpa [Regex.isGroup] using List.all_eq_true.1 hfilled _ hmem
  exact List.ne_nil_of_length_pos (Regex.length_pos_of_isNonempty hr hreads)

/-- A framed group stands between certain characters. -/
theorem Consumed.exists_frames (h : pattern.Consumed window captures parts bindings)
    {chars : List Char} (hframed : isFramed chars group parts = true) (hgroup : group ≠ 0)
    (hahead : pattern.ahead? ≠ some group) :
    ∃ before inner after, captures.Frames group before inner after ∧
      (∀ c ∈ before ++ after, c ∈ chars) ∧ before ++ after ≠ [] ∧
      (isFilled group parts = true → inner ≠ []) := by
  obtain ⟨before, name, r, after, hparts, hbefore, hafter, hany, hnot⟩ :=
    exists_eq_append_of_isFramed hframed
  obtain ⟨u, v, w, post, bu, bv, bw, hframes, hu, hv, hw⟩ :=
    h.exists_frames_of_eq hparts hnot hgroup hahead
  refine ⟨u, v, w, hframes, ?_, ?_, fun hfilled => ne_nil_of_isFilled hfilled (by simp [hparts]) hv⟩
  · exact List.forall_mem_append.2
      ⟨Regex.forall_mem_of_all_isWithin hbefore hu, Regex.forall_mem_of_all_isWithin hafter hw⟩
  · rw [List.any_append, Bool.or_eq_true_iff] at hany
    rcases hany with hany | hany
    · exact List.append_ne_nil_of_left_ne_nil (Regex.ne_nil_of_any_isNonempty hany hu) w
    · exact List.append_ne_nil_of_right_ne_nil u (Regex.ne_nil_of_any_isNonempty hany hw)

/-! ### Pieces -/

/-- A character, or the text of a group. -/
inductive Piece where
  | char (c : Char)
  | group (index : Nat)
deriving DecidableEq, Repr

/-- The text of a piece in a match.  A group that took no part has none. -/
def Piece.text (captures : Captures) : Piece → List Char
  | .char c => [c]
  | .group index => ((captures.text? index).getD "").toList

@[simp] theorem Piece.text_char (captures : Captures) (c : Char) :
    (Piece.char c).text captures = [c] := rfl

/-- The pieces that a part reads, if that is nothing, a fixed character or a group. -/
def partPieces? : Regex → Option (List Piece)
  | .look _ => some []
  | .set (.one c) => some [.char c]
  | .group index _ _ => some [.group index]
  | _ => none

/-- The pieces that parts read one after the other. -/
def pieces? : List Regex → Option (List Piece)
  | [] => some []
  | r :: parts => return (← partPieces? r) ++ (← pieces? parts)

section Pieces

variable {pieces : List Piece} {pre word post : List Char}

theorem eq_flatMap_of_partPieces? {r : Regex} (hpieces : partPieces? r = some pieces)
    (hreads : r.Reads pre word post bindings)
    (hinput : captures.input.toList = pre ++ word ++ post)
    (hrange : ∀ {group range}, bindings.lookup group = some range →
      captures.range? group = some range) :
    word = pieces.flatMap (Piece.text captures) := by
  unfold partPieces? at hpieces
  split at hpieces
  · cases hpieces
    exact hreads.1
  · cases hpieces
    obtain ⟨d, rfl, hd, -⟩ := hreads
    simpa [CharSet.mem, Piece.text] using hd
  · cases hpieces
    obtain ⟨inner, rfl, -⟩ := hreads
    have hslice := Text.slice?_of_toList hinput
    rw [← Text.byteSize_append] at hslice
    rw [List.flatMap_singleton, Piece.text, Captures.text?, hrange List.lookup_cons_self,
      Option.map_some, Text.slice_of_slice? hslice, Option.getD_some, String.toList_ofList]
  · cases hpieces

/-- What is read is put together from its pieces, in any match that gives the groups the same
ranges. -/
theorem eq_flatMap_of_pieces? (hpieces : pieces? parts = some pieces)
    (hnodup : (Regex.indicesEach parts).Nodup)
    (hreads : Regex.ReadsEach parts pre word post bindings)
    (hinput : captures.input.toList = pre ++ word ++ post)
    (hrange : ∀ {group range}, bindings.lookup group = some range →
      captures.range? group = some range) :
    word = pieces.flatMap (Piece.text captures) := by
  induction parts generalizing pieces pre word bindings with
  | nil =>
    cases hpieces
    exact hreads.1
  | cons r parts ih =>
    obtain ⟨u, v, bu, bv, rfl, rfl, hu, hv⟩ := hreads
    rw [Regex.indicesEach, List.flatMap_cons, List.nodup_append] at hnodup
    obtain ⟨-, hparts, hdisjoint⟩ := hnodup
    simp only [pieces?, bind, Option.bind_eq_some_iff, pure, Option.some.injEq] at hpieces
    obtain ⟨first, hfirst, rest, hrest, rfl⟩ := hpieces
    have hu' : u = first.flatMap (Piece.text captures) := by
      refine eq_flatMap_of_partPieces? hfirst hu (by simpa using hinput) fun {group range} h => ?_
      have hnot : group ∉ Regex.indicesEach parts := fun hmem =>
        hdisjoint group (Regex.binds_indices r _ _ _ _ hu _ (mem_of_lookup h)) group hmem rfl
      exact hrange (by rw [List.lookup_append, Regex.lookup_eq_none hv hnot, Option.none_or, h])
    have hv' : v = rest.flatMap (Piece.text captures) :=
      ih hrest hparts hv (by simpa using hinput) fun h =>
        hrange (by rw [List.lookup_append, h, Option.some_or])
    rw [List.flatMap_append, ← hu', ← hv']

end Pieces

/-- What is consumed is put together from its pieces. -/
theorem Consumed.toList_eq_flatMap (h : pattern.Consumed window captures parts bindings)
    {pieces : List Piece} (hpieces : pieces? parts = some pieces)
    (hindices : (Regex.indicesEach parts).Nodup) (hzero : 0 ∉ Regex.indicesEach parts)
    (hahead : pattern.ahead? = none) :
    captures.consumed.toList = pieces.flatMap (Piece.text captures) := by
  obtain ⟨post, hwindow, hreads⟩ := h.reads
  have hinput : captures.input.toList = [] ++ captures.consumed.toList ++ post := by
    rw [h.captures_over.input_eq, hwindow, List.nil_append]
  refine eq_flatMap_of_pieces? hpieces hindices hreads hinput ?_
  intro group range hlookup
  have hmem := Regex.binds_indicesEach _ _ _ _ _ hreads _ (mem_of_lookup hlookup)
  rw [h.range?_eq (fun heq => hzero (heq ▸ hmem)) (by simp [hahead]), hlookup]

/-- The number of a piece that is a group. -/
def Piece.index? : Piece → Option Nat
  | .char _ => none
  | .group index => some index

theorem exists_mem_of_group_mem {pieces : List Piece} (hpieces : pieces? parts = some pieces)
    (hmem : .group group ∈ pieces) : ∃ name r, .group group name r ∈ parts := by
  induction parts generalizing pieces with
  | nil =>
    cases hpieces
    cases hmem
  | cons r parts ih =>
    simp only [pieces?, bind, Option.bind_eq_some_iff, pure, Option.some.injEq] at hpieces
    obtain ⟨first, hfirst, rest, hrest, rfl⟩ := hpieces
    rcases List.mem_append.1 hmem with hmem | hmem
    · unfold partPieces? at hfirst
      split at hfirst
      · cases hfirst
        cases hmem
      · cases hfirst
        cases List.mem_singleton.1 hmem
      · cases hfirst
        cases List.mem_singleton.1 hmem
        exact ⟨_, _, List.mem_cons_self ..⟩
      · cases hfirst
    · obtain ⟨name, r, hr⟩ := ih hrest hmem
      exact ⟨name, r, List.mem_cons_of_mem _ hr⟩

/-- Does every strand read one of several sequences of pieces, each of whose groups is there
once? -/
def isTiled (pattern : Pattern) (choices : List (List Piece)) : Bool :=
  pattern.isCut && pattern.ahead? = none && pattern.regex.strands.all fun strand =>
    let parts := pattern.consuming strand
    choices.any fun pieces =>
      pieces? parts = some pieces && Regex.indicesEach parts = pieces.filterMap Piece.index? &&
        (Regex.indicesEach parts).Nodup && 0 ∉ Regex.indicesEach parts

/-- Does a group read a character in every strand? -/
def fills (pattern : Pattern) (group : Nat) : Bool :=
  pattern.regex.strands.all fun strand => isFilled group (pattern.consuming strand)

/-- What a tiled pattern consumes is one of the sequences of pieces.  The groups among the pieces
have taken part in the match, and no others. -/
theorem exists_pieces_of_isTiled {choices : List (List Piece)}
    (hpattern : pattern.isTiled choices = true) (h : pattern.matchStart window = some captures) :
    captures.Over window ∧ ∃ pieces ∈ choices,
      captures.consumed.toList = pieces.flatMap (Piece.text captures) ∧
      (∀ group, .group group ∈ pieces → ∃ before inner after,
        captures.Frames group before inner after ∧ (pattern.fills group = true → inner ≠ [])) ∧
      ∀ group, group ≠ 0 → .group group ∉ pieces → captures.range? group = none := by
  simp only [isTiled, Bool.and_eq_true, decide_eq_true_eq] at hpattern
  obtain ⟨⟨hcut, hahead⟩, hstrands⟩ := hpattern
  obtain ⟨strand, hmem, bindings, hconsumed⟩ := exists_consumed hcut h
  obtain ⟨pieces, hchoice, hpieces⟩ := List.any_eq_true.1 (List.all_eq_true.1 hstrands strand hmem)
  simp only [Bool.and_eq_true, decide_eq_true_eq] at hpieces
  obtain ⟨⟨⟨hpieces, hindices⟩, hnodup⟩, hzero⟩ := hpieces
  refine ⟨hconsumed.captures_over, pieces, hchoice,
    hconsumed.toList_eq_flatMap hpieces hnodup hzero hahead, ?_, ?_⟩
  · intro group hgroup
    obtain ⟨name, r, hr⟩ := exists_mem_of_group_mem hpieces hgroup
    obtain ⟨before, after, hparts⟩ := List.append_of_mem hr
    have hnot : group ∉ Regex.indicesEach after := by
      intro hafter
      rw [hparts, Regex.indicesEach, List.flatMap_append, List.flatMap_cons] at hnodup
      have := (List.nodup_append.1 (List.nodup_append.1 hnodup).2.1).2.2 group
        (by simp [Regex.indices, Regex.groups]) group hafter
      exact this rfl
    have hne : group ≠ 0 := by
      rintro rfl
      exact hzero (List.mem_flatMap.2 ⟨_, hr, by simp [Regex.indices, Regex.groups]⟩)
    obtain ⟨u, v, w, post, bu, bv, bw, hframes, -, hv, -⟩ :=
      hconsumed.exists_frames_of_eq hparts hnot hne (by simp [hahead])
    exact ⟨u, v, w, hframes, fun hfills =>
      ne_nil_of_isFilled (List.all_eq_true.1 hfills strand hmem) hr hv⟩
  · intro group hgroup hnot
    obtain ⟨post, -, hreads⟩ := hconsumed.reads
    rw [hconsumed.range?_eq hgroup (by simp [hahead])]
    refine Regex.lookup_eq_none hreads ?_
    rw [hindices, List.mem_filterMap]
    rintro ⟨piece, hpiece, hindex⟩
    cases piece with
    | char c => cases hindex
    | group index =>
      cases hindex
      exact hnot hpiece

end Pattern

end RuledMarkup
