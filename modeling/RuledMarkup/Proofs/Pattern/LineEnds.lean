import RuledMarkup.Proofs.Pattern.Groups

/-!
# Line ends in what a pattern consumes

Whether a match may end with a certain character or has it, whether a group may have it in its text,
and whether a group goes on to the end of a match.  All of this is decided by the parts of the
strands.

## Main definitions

* `Pattern.endsApart`, `Pattern.hasChar` : no match ends with a character, every match has it.
* `Pattern.keepsOut` : a group has no text with a character in it.
* `Pattern.endsBefore` : a group goes on to the first time that a character comes.
* `Pattern.endsWithEither` : one of two groups goes on to the end of every match.

## Main results

* `Pattern.getLast?_ne_of_endsApart`, `Pattern.mem_of_hasChar`, `Pattern.exists_frames_of_keepsOut`,
  `Pattern.exists_frames_of_endsBefore`, `Pattern.exists_frames_of_endsWithEither` : what they say
  about a match.
-/

namespace RuledMarkup.Pattern

open Text (byteSize)

variable {pattern : Pattern} {window : String} {captures : Captures} {c : Char} {group : Nat}

/-- Does every strand have parts at its end that read something, but never the character? -/
def endsApart (pattern : Pattern) (c : Char) : Bool :=
  pattern.isCut && pattern.regex.strands.all fun strand =>
    ((pattern.consuming strand).reverse.takeWhile (·.avoids c)).any (·.isNonempty)

/-- No match ends with the character. -/
theorem getLast?_ne_of_endsApart (hpattern : pattern.endsApart c = true)
    (h : pattern.matchStart window = some captures) :
    captures.consumed.toList.getLast? ≠ some c := by
  obtain ⟨hcut, hstrands⟩ := Bool.and_eq_true_iff.1 hpattern
  obtain ⟨strand, hmem, bindings, hconsumed⟩ := exists_consumed hcut h
  obtain ⟨post, -, hreads⟩ := hconsumed.reads
  have hany := List.all_eq_true.1 hstrands strand hmem
  generalize pattern.consuming strand = parts at hreads hany
  have hparts : parts = (parts.reverse.dropWhile (·.avoids c)).reverse ++
      (parts.reverse.takeWhile (·.avoids c)).reverse := by
    rw [← List.reverse_append, List.takeWhile_append_dropWhile, List.reverse_reverse]
  rw [hparts, Regex.readsEach_append] at hreads
  obtain ⟨u, v, bu, bv, hword, -, -, hv⟩ := hreads
  have hne : v ≠ [] := Regex.ne_nil_of_any_isNonempty (by rwa [List.any_reverse]) hv
  have hnot : c ∉ v := by
    refine Regex.not_mem_of_all_avoids ?_ hv
    rw [List.all_reverse]
    exact List.all_takeWhile
  obtain ⟨w, d, rfl⟩ := (List.eq_nil_or_concat v).resolve_left hne
  rw [List.concat_eq_append] at hword hnot
  rw [hword, ← List.append_assoc, List.getLast?_concat, Ne, Option.some.injEq]
  rintro rfl
  exact hnot (by simp)

/-- Is the character itself among the parts of every strand? -/
def hasChar (pattern : Pattern) (c : Char) : Bool :=
  pattern.isCut && pattern.regex.strands.all fun strand =>
    .set (.one c) ∈ pattern.consuming strand

theorem mem_of_hasChar (hpattern : pattern.hasChar c = true)
    (h : pattern.matchStart window = some captures) : c ∈ captures.consumed.toList := by
  obtain ⟨hcut, hstrands⟩ := Bool.and_eq_true_iff.1 hpattern
  obtain ⟨strand, hmem, bindings, hconsumed⟩ := exists_consumed hcut h
  obtain ⟨post, -, hreads⟩ := hconsumed.reads
  exact Regex.mem_of_mem_parts (of_decide_eq_true (List.all_eq_true.1 hstrands strand hmem)) hreads

/-- Is there, in every strand, a group that is found once and never reads the character? -/
def keepsOut (pattern : Pattern) (group : Nat) (c : Char) : Bool :=
  pattern.isCut && group ≠ 0 && pattern.ahead? ≠ some group &&
    pattern.regex.strands.all fun strand =>
      match fromGroup group (pattern.consuming strand) with
      | [] => false
      | r :: after => r.avoids c && group ∉ Regex.indicesEach after

/-- The text of the group does not have the character. -/
theorem exists_frames_of_keepsOut (hpattern : pattern.keepsOut group c = true)
    (h : pattern.matchStart window = some captures) :
    ∃ before inner after, captures.Frames group before inner after ∧ c ∉ inner := by
  simp only [keepsOut, Bool.and_eq_true, decide_eq_true_eq] at hpattern
  obtain ⟨⟨⟨hcut, hgroup⟩, hahead⟩, hstrands⟩ := hpattern
  obtain ⟨strand, hmem, bindings, hconsumed⟩ := exists_consumed hcut h
  have hstrand := List.all_eq_true.1 hstrands strand hmem
  cases hrest : fromGroup group (pattern.consuming strand) with
  | nil => simp [hrest] at hstrand
  | cons r after =>
    simp only [hrest, Bool.and_eq_true, decide_eq_true_eq] at hstrand
    obtain ⟨havoids, hnot⟩ := hstrand
    obtain ⟨name, r, rfl, hparts⟩ := exists_eq_append_of_fromGroup hrest
    obtain ⟨u, v, w, post, bu, bv, bw, hframes, -, hv, -⟩ :=
      hconsumed.exists_frames_of_eq hparts hnot hgroup hahead
    rw [← Regex.readsEach_singleton] at hv
    exact ⟨u, v, w, hframes, Regex.not_mem_of_all_avoids (by simpa using havoids) hv⟩

/-- Is there, in every strand, a group that is found once, never reads the character and is followed
by it? -/
def endsBefore (pattern : Pattern) (group : Nat) (c : Char) : Bool :=
  pattern.isCut && group ≠ 0 && pattern.ahead? ≠ some group &&
    pattern.regex.strands.all fun strand =>
      match fromGroup group (pattern.consuming strand) with
      | r :: .set (.one d) :: after =>
        d = c && r.avoids c && group ∉ Regex.indicesEach (.set (.one d) :: after)
      | _ => false

/-- The text of the group goes on to the first time that the character comes. -/
theorem exists_frames_of_endsBefore (hpattern : pattern.endsBefore group c = true)
    (h : pattern.matchStart window = some captures) :
    ∃ before inner after, captures.Frames group before inner (c :: after) ∧ c ∉ inner := by
  simp only [endsBefore, Bool.and_eq_true, decide_eq_true_eq] at hpattern
  obtain ⟨⟨⟨hcut, hgroup⟩, hahead⟩, hstrands⟩ := hpattern
  obtain ⟨strand, hmem, bindings, hconsumed⟩ := exists_consumed hcut h
  have hstrand := List.all_eq_true.1 hstrands strand hmem
  split at hstrand
  · rename_i r d after hrest
    simp only [Bool.and_eq_true, decide_eq_true_eq] at hstrand
    obtain ⟨⟨rfl, havoids⟩, hnot⟩ := hstrand
    obtain ⟨name, r, rfl, hparts⟩ := exists_eq_append_of_fromGroup hrest
    obtain ⟨u, v, w, post, bu, bv, bw, hframes, -, hv, x, y, bx, by', rfl, -, ⟨e, rfl, he, -⟩, -⟩ :=
      hconsumed.exists_frames_of_eq hparts hnot hgroup hahead
    obtain rfl : e = d := by simpa [CharSet.mem] using he
    rw [← Regex.readsEach_singleton] at hv
    exact ⟨u, v, y, hframes, Regex.not_mem_of_all_avoids (by simpa using havoids) hv⟩
  · cases hstrand

/-- Is either of two groups the last part of every strand?  The first one must not take part where
the second one is. -/
def endsWithEither (pattern : Pattern) (first second : Nat) : Bool :=
  pattern.isCut && first ≠ 0 && second ≠ 0 && pattern.ahead? ≠ some first &&
    pattern.ahead? ≠ some second && pattern.regex.strands.all fun strand =>
      let parts := pattern.consuming strand
      (fromGroup first parts).length = 1 ||
        (fromGroup second parts).length = 1 && first ∉ Regex.indicesEach parts

theorem Consumed.exists_frames_of_last {parts : List Regex} {bindings : Bindings}
    (h : pattern.Consumed window captures parts bindings)
    (hlast : (fromGroup group parts).length = 1) (hgroup : group ≠ 0)
    (hahead : pattern.ahead? ≠ some group) :
    ∃ before inner, captures.Frames group before inner [] := by
  obtain ⟨r, hrest⟩ := List.length_eq_one_iff.1 hlast
  obtain ⟨name, r, rfl, hparts⟩ := exists_eq_append_of_fromGroup hrest
  obtain ⟨u, v, w, post, bu, bv, bw, hframes, -, -, hw⟩ :=
    h.exists_frames_of_eq hparts (by simp [Regex.indicesEach]) hgroup hahead
  obtain ⟨rfl, -⟩ := hw
  exact ⟨u, v, hframes⟩

/-- A match ends with one of the groups. -/
theorem exists_frames_of_endsWithEither {first second : Nat}
    (hpattern : pattern.endsWithEither first second = true)
    (h : pattern.matchStart window = some captures) :
    ∃ group before inner, (group = first ∨ group = second ∧ captures.range? first = none) ∧
      captures.Frames group before inner [] := by
  simp only [endsWithEither, Bool.and_eq_true, decide_eq_true_eq] at hpattern
  obtain ⟨⟨⟨⟨⟨hcut, hfirst⟩, hsecond⟩, hahead⟩, hahead'⟩, hstrands⟩ := hpattern
  obtain ⟨strand, hmem, bindings, hconsumed⟩ := exists_consumed hcut h
  have hstrand := List.all_eq_true.1 hstrands strand hmem
  simp only [Bool.or_eq_true, Bool.and_eq_true, decide_eq_true_eq] at hstrand
  rcases hstrand with hlast | ⟨hlast, hnot⟩
  · obtain ⟨before, inner, hframes⟩ := hconsumed.exists_frames_of_last hlast hfirst hahead
    exact ⟨first, before, inner, .inl rfl, hframes⟩
  · obtain ⟨before, inner, hframes⟩ := hconsumed.exists_frames_of_last hlast hsecond hahead'
    obtain ⟨post, -, hreads⟩ := hconsumed.reads
    have hnone : captures.range? first = none := by
      rw [hconsumed.range?_eq hfirst hahead]
      exact Regex.lookup_eq_none hreads hnot
    exact ⟨second, before, inner, .inr ⟨rfl, hnone⟩, hframes⟩

end RuledMarkup.Pattern
