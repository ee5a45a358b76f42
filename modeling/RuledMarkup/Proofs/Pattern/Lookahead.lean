import RuledMarkup.Proofs.Pattern.Anchored
import RuledMarkup.Proofs.Pattern.Shortest

/-!
# The lookahead group is not consumed

A pattern that is one expression with another one behind it in the lookahead group matches where
the second one matches behind a match of the first one.  Of the matches of the first one that count,
the preferred one is consumed, and nothing of what the second one matches.  A pattern whose
lookahead group takes no part in a match consumes all of the match.

## Main definitions

* `Regex.waysAt` : the ways in which an expression matches between two texts.
* `Regex.MatchesBehind` : an expression matches where a way has ended.

## Main results

* `Pattern.lookahead_not_consumed` : what such patterns match and consume.
-/

namespace RuledMarkup

open Text (byteSize)

namespace Regex

/-- The ways in which an expression matches between two texts, the preferred ones first. -/
def waysAt (r : Regex) (pre post : List Char) : List Way :=
  r.guarded.ways (pre ++ post).length (.between pre post, [])

/-- The expression matches where a way in a text has ended. -/
def MatchesBehind (r : Regex) (text : List Char) (way : Way) : Prop :=
  ∃ pre, text = pre ++ way.1.rest ∧ r.waysAt pre way.1.rest ≠ []

variable {r own look a b : Regex} {way : Way} {pre post text : List Char}

/-- A way between two texts is a reading. -/
theorem reads_of_mem_waysAt (h : way ∈ r.waysAt pre post) :
    ∃ word rest bindings, post = word ++ rest ∧ way.1.At (pre ++ word) rest ∧
      r.Reads pre word rest bindings := by
  obtain ⟨word, rest, bindings, hpost, -, hat, hreads⟩ :=
    reads_of_mem_ways h pre post ⟨rfl, rfl, rfl⟩
  exact ⟨word, rest, bindings, hpost, hat, r.reads_guarded_le _ _ _ _ hreads⟩

/-- Where the text behind a way begins is where the way has ended. -/
theorem matchesBehind_iff (htext : text = pre ++ way.1.rest) :
    r.MatchesBehind text way ↔ r.waysAt pre way.1.rest ≠ [] := by
  refine ⟨?_, fun h => ⟨pre, htext, h⟩⟩
  rintro ⟨pre', htext', h⟩
  obtain rfl : pre = pre' := List.append_cancel_right (htext.symm.trans htext')
  exact h

/-- The ways of the start condition and an expression behind it. -/
theorem ways_seq_start (bound : Nat) (r : Regex) (text : List Char) :
    (seq (.look .start) r).ways bound (.ofText text, []) = r.ways bound (.ofText text, []) := by
  rw [ways_seq]
  simp [ways, Look.holds, Cursor.ofText]

variable {marks : Nat} (index groups : Nat) (name : Option String)

/-- Behind a way that has passed other checkpoints a group is matched if its expression is matched
at that place, and it begins there. -/
theorem head?_ways_group (hb : ∀ bound, b.ways bound = look.guarded.ways bound)
    (hat : way.1.At pre post) (hpassed : ∀ mark ∈ way.1.passed, mark < marks) :
    Option.Rel (fun _ found => (found.2.lookup index).map (·.start) = some (byteSize pre))
      (look.waysAt pre post).head?
      ((group index name (b.shift marks groups)).ways (pre ++ post).length way).head? := by
  have halike : Way.Alike marks (.between pre post, []) way := by
    refine ⟨hat.before_eq, hat.rest_eq, hat.offset_eq, fun mark => ?_⟩
    simp only [Cursor.between, List.not_mem_nil, iff_false]
    intro hmem
    have := hpassed _ hmem
    omega
  have hways : List.Forall₂ (Way.Alike marks) (look.waysAt pre post)
      ((b.shift marks groups).ways (pre ++ post).length way) := by
    rw [waysAt, ← hb]
    exact alike_ways groups b halike
  rw [ways, List.head?_map]
  generalize look.waysAt pre post = found at hways ⊢
  generalize (b.shift marks groups).ways (pre ++ post).length way = found' at hways ⊢
  cases hways with
  | nil => exact .none
  | cons h _ => exact .some (by simp [hat.offset_eq])

/-- The first way of an expression counts behind which the group matches. -/
theorem head?_ways_lookahead (ha : ∀ bound, a.ways bound = own.guarded.ways bound)
    (s : Regex) (text : List Char) :
    ((seq (.look .start) (seq a s)).ways text.length (.ofText text, [])).head? =
      (own.waysAt [] text).findSome? fun way => (s.ways text.length way).head? := by
  rw [ways_seq_start, ways_seq, ha, ← findSome?_some, findSome?_flatMap]
  simp only [findSome?_some]
  rfl

/-- Behind each way of an expression a group is matched if its expression is matched there. -/
theorem exists_rel_head?_ways (ha : ∀ bound, a.ways bound = own.guarded.ways bound)
    (hmarks : ∀ mark ∈ a.marks, mark < marks)
    (hb : ∀ bound, b.ways bound = look.guarded.ways bound) (h : way ∈ own.waysAt [] text) :
    ∃ consumed bindings, text = consumed ++ way.1.rest ∧
      own.Reads [] consumed way.1.rest bindings ∧
      Option.Rel (fun _ found => (found.2.lookup index).map (·.start) = some (byteSize consumed))
        (look.waysAt consumed way.1.rest).head?
        ((group index name (b.shift marks groups)).ways text.length way).head? := by
  have hpassed : ∀ mark ∈ way.1.passed, mark < marks := by
    rw [waysAt, ← ha] at h
    exact passed_of_mem_ways hmarks (fun mark hmem => by cases hmem) h
  obtain ⟨consumed, rest, bindings, rfl, hat, hreads⟩ := reads_of_mem_waysAt h
  obtain rfl := hat.rest_eq
  exact ⟨consumed, bindings, rfl, hreads, head?_ways_group index groups name hb hat hpassed⟩

/-- Behind a way the group is matched if its expression matches there. -/
theorem isSome_head?_ways_iff (ha : ∀ bound, a.ways bound = own.guarded.ways bound)
    (hmarks : ∀ mark ∈ a.marks, mark < marks)
    (hb : ∀ bound, b.ways bound = look.guarded.ways bound) (h : way ∈ own.waysAt [] text) :
    ((group index name (b.shift marks groups)).ways text.length way).head?.isSome = true ↔
      look.MatchesBehind text way := by
  obtain ⟨consumed, -, htext, -, hrel⟩ := exists_rel_head?_ways index groups name ha hmarks hb h
  rw [matchesBehind_iff htext, ne_eq, ← List.head?_eq_none_iff]
  generalize (look.waysAt consumed way.1.rest).head? = found at hrel ⊢
  generalize ((group index name _).ways text.length way).head? = found' at hrel ⊢
  cases hrel <;> simp

end Regex

namespace Pattern

/-- The written form of an expression with another one behind it in the lookahead group. -/
def lookaheadSource (first ahead : String) : String :=
  "(?:" ++ first ++ ")(?P<ahead>" ++ ahead ++ ")"

variable {own look : Regex} {pattern : Pattern} {input : String} {captures : Captures}

/-- An input begins with a text and one behind it that two expressions match: the second one the
latter in the preferred way, and the first one the former in the preferred way behind which the
second one matches at all. -/
structure LooksAhead (own look : Regex) (input : String) (consumed looked rest : List Char) :
    Prop where
  input_eq : input.toList = consumed ++ looked ++ rest
  first : ∃ before way after, own.waysAt [] input.toList = before ++ way :: after ∧
    way.1.rest = looked ++ rest ∧ ∀ other ∈ before, ¬ look.MatchesBehind input.toList other
  ahead : ∃ found, (look.waysAt consumed (looked ++ rest)).head? = some found ∧ found.1.rest = rest
  first_reads : ∃ bindings, own.Reads [] consumed (looked ++ rest) bindings
  ahead_reads : ∃ bindings, look.Reads consumed looked rest bindings

/-- The lookahead group of a pattern that is an expression with another one behind it. -/
theorem exists_ahead? {a b : Regex} {source : String} {index : Nat}
    (hgroups : a.groups ⊆ own.groups) (hname : own.groupIndex? lookaheadGroup = none) :
    ahead? ⟨source, Regex.seq (.look .start) (Regex.seq a (.group index (some "ahead") b))⟩ =
      some index := by
  have hnone : a.groups.find? (fun g => g.2 = some lookaheadGroup) = none := by
    rw [Regex.groupIndex?, Option.map_eq_none_iff, List.find?_eq_none] at hname
    exact List.find?_eq_none.2 fun g hg => hname g (hgroups hg)
  rw [ahead?, Regex.groupIndex?, Regex.groups_seq, Regex.groups_seq, Regex.groups, List.nil_append,
    List.find?_append, hnone]
  rfl

/-- What is related to something that is there is there as well. -/
theorem exists_of_rel_some {α β : Type} {p : α → β → Prop} {found : Option α} {b : β}
    (h : Option.Rel p found (some b)) : ∃ a, found = some a ∧ p a b := by
  cases h with
  | some h => exact ⟨_, rfl, h⟩

/-- Of the ways of the first expression that one is found behind which the group matches first, and
what is consumed ends where the group begins. -/
theorem exists_looksAhead {a b : Regex} {marks index groups : Nat} {stop : Cursor}
    {bindings : Bindings}
    (ha : ∀ bound, a.ways bound = own.guarded.ways bound)
    (hmarks : ∀ mark ∈ a.marks, mark < marks)
    (hb : ∀ bound, b.ways bound = look.guarded.ways bound)
    (hahead : pattern.ahead? = some index)
    (hfound : (own.waysAt [] input.toList).findSome? (fun way =>
      ((Regex.group index (some "ahead") (b.shift marks groups)).ways input.toList.length
        way).head?) = some (stop, bindings)) :
    ∃ consumed looked rest,
      (pattern.captures input stop bindings).consumed = String.ofList consumed ∧
        LooksAhead own look input consumed looked rest := by
  obtain ⟨before, way, after, hways, hway, hbefore⟩ := List.findSome?_eq_some_iff.1 hfound
  have hmem : way ∈ own.waysAt [] input.toList := by simp [hways]
  obtain ⟨consumed, bindings', hinput, hreads, hrel⟩ :=
    Regex.exists_rel_head?_ways index groups (some "ahead") ha hmarks hb hmem
  rw [hway] at hrel
  obtain ⟨first, hfirst, hstart⟩ := exists_of_rel_some hrel
  obtain ⟨range, hlookup, hrange⟩ := Option.map_eq_some_iff.1 hstart
  obtain ⟨looked, rest, bindings'', hrest, hat, hlook⟩ :=
    Regex.reads_of_mem_waysAt (List.mem_of_mem_head? hfirst)
  rw [hrest] at hinput hreads hfirst
  have hsize : (pattern.captures input stop bindings).size = byteSize consumed :=
    (size_of_lookup hahead hlookup).trans hrange
  have hconsumed : (pattern.captures input stop bindings).consumed = String.ofList consumed := by
    rw [← String.toList_inj, toList_consumed hinput hsize, String.toList_ofList]
  refine ⟨consumed, looked, rest, hconsumed, ?_, ⟨before, way, after, hways, hrest, ?_⟩,
    ⟨first, hfirst, hat.rest_eq⟩, ⟨bindings', hreads⟩, bindings'', hlook⟩
  · rw [hinput, List.append_assoc]
  · intro other hother hbehind
    have hmem : other ∈ own.waysAt [] input.toList := by simp [hways, hother]
    have hsome :=
      (Regex.isSome_head?_ways_iff index groups (some "ahead") ha hmarks hb hmem).2 hbehind
    rw [hbefore other hother] at hsome
    cases hsome

/-- The pattern matches those inputs at whose start the first expression has a match behind which
the second one matches, and it consumes the first such match in the order of preference. -/
structure MatchesBefore (pattern : Pattern) (own look : Regex) : Prop where
  isSome_iff : ∀ input, (pattern.matchStart input).isSome = true ↔
    ∃ way ∈ own.waysAt [] input.toList, look.MatchesBehind input.toList way
  consumes : ∀ input captures, pattern.matchStart input = some captures →
    ∃ consumed looked rest, captures.consumed = String.ofList consumed ∧
      LooksAhead own look input consumed looked rest

/-- If the lookahead group takes no part in a match, then the pattern consumes all of the match that
the expression prefers. -/
def ConsumesWhole (pattern : Pattern) (own : Regex) : Prop :=
  ∀ ⦃input captures⦄, pattern.matchStart input = some captures →
    (∀ index ∈ pattern.ahead?, captures.range? index = none) →
    ∃ way, (own.waysAt [] input.toList).head? = some way ∧
      input.toList = captures.consumed.toList ++ way.1.rest

/-- The numbers of the lookahead group and of the groups in it do not matter. -/
theorem matchesBefore_guarded (source : String) (hown : own.marks = []) (hlook : look.marks = [])
    (hname : own.groupIndex? lookaheadGroup = none) (index groups : Nat) :
    MatchesBefore ⟨source, (Regex.seq (.look .start)
      (.seq own (.group index (some "ahead") (look.shift 0 groups)))).guarded⟩ own look := by
  obtain ⟨a, b, marks, hguarded, ha, hb, hmarks, hgroups⟩ :=
    Regex.exists_guarded_lookahead hown hlook index (some "ahead") groups
  rw [hguarded]
  have hsearch (input : String) :=
    (Regex.search_eq_head?_ways (Regex.isAnchored_seq_start _) input.toList).trans
      (Regex.head?_ways_lookahead ha (.group index (some "ahead") (b.shift marks groups))
        input.toList)
  refine ⟨fun input => ?_, fun input captures hmatch => ?_⟩
  · rw [matchStart, Option.isSome_map, hsearch, List.isSome_findSome?, List.any_eq_true]
    exact exists_congr fun way => and_congr_right fun hway =>
      Regex.isSome_head?_ways_iff index groups _ ha hmarks hb hway
  · obtain ⟨⟨stop, bindings⟩, hfound, rfl⟩ := Option.map_eq_some_iff.1 hmatch
    rw [hsearch] at hfound
    exact exists_looksAhead ha hmarks hb (exists_ahead? hgroups hname) hfound

/-- Two expressions that can be read alone are read like that in the pattern made of them. -/
theorem matchesBefore_of_read {compiler : Regex.Compiler} {first ahead : String}
    (hcompiler : compiler.LooksAhead) (hown : compiler.read first.toList = .ok own)
    (hlook : compiler.read ahead.toList = .ok look) (hcloses : compiler.Closes first.toList)
    (hname : own.groupIndex? lookaheadGroup = none)
    (hread : read (lookaheadSource first ahead) compiler = .ok pattern) :
    pattern.MatchesBefore own look := by
  obtain ⟨whole, hwhole, rfl⟩ := exists_of_read hread
  have hchars : (lookaheadSource first ahead).toList =
      Regex.lookaheadChars first.toList ahead.toList := by
    simp [lookaheadSource, Regex.lookaheadChars, Regex.aheadOpening]
  rw [toList_anchoredSource hchars] at hwhole
  obtain ⟨hmarks, hmarks', index, rfl⟩ := hcompiler hown hlook hcloses hwhole
  exact matchesBefore_guarded _ hmarks hmarks' hname index index

theorem consumesWhole_guarded (source : String) (own : Regex) :
    ConsumesWhole ⟨source, (Regex.seq (.look .start) own).guarded⟩ own := by
  intro input captures hmatch hahead
  obtain ⟨r, hguarded, hways⟩ := Regex.exists_guarded_start own
  rw [hguarded] at hmatch hahead
  have hanchored := Regex.isAnchored_seq_start r
  obtain ⟨⟨stop, bindings⟩, hsearch, rfl⟩ := Option.map_eq_some_iff.1 hmatch
  rw [Regex.search_eq_head?_ways hanchored] at hsearch
  obtain ⟨consumed, rest, hinput, hat, hreads⟩ :=
    Regex.reads_of_head?_ways (Cursor.at_ofText input.toList) hsearch
  have hlookup : ∀ index ∈ ahead? ⟨source, .seq (.look .start) r⟩,
      bindings.lookup index = none := by
    intro index hindex
    have hrange := hahead index hindex
    have hne : index ≠ 0 := by
      rintro rfl
      cases range?_captures_zero.symm.trans hrange
    rwa [range?_captures hreads hne] at hrange
  have hsize : (Pattern.captures ⟨source, .seq (.look .start) r⟩ input stop bindings).size =
      byteSize consumed := by
    rw [size_captures, Option.bind_eq_none_iff.2 hlookup, Option.map_none, Option.getD_none,
      hat.offset_eq, List.nil_append]
  refine ⟨(stop, bindings), ?_, ?_⟩
  · rwa [Regex.ways_seq_start, hways] at hsearch
  · rw [toList_consumed hinput hsize, hinput, hat.rest_eq]

/-- A pattern may be an expression with another one behind it in the lookahead group.  It matches
those inputs at whose start the first expression has a match behind which the second one matches.
The first such match in the order of preference is consumed, and what comes next in the input begins
with what the second expression matches there.  Whatever the pattern is, all of a match is consumed
if the lookahead group takes no part in it.  This is so for expressions of any form, and for written
forms with every compiler that reads an expression in a group as it reads it alone. -/
theorem lookahead_not_consumed :
    (∀ source own look index, own.marks = [] → look.marks = [] →
      own.groupIndex? lookaheadGroup = none → MatchesBefore ⟨source, (Regex.seq (.look .start)
        (.seq own (.group index (some "ahead") look))).guarded⟩ own look) ∧
    (∀ compiler : Regex.Compiler, compiler.LooksAhead → ∀ first ahead own look pattern,
      compiler.read first.toList = .ok own → compiler.read ahead.toList = .ok look →
      compiler.Closes first.toList → own.groupIndex? lookaheadGroup = none →
      read (lookaheadSource first ahead) compiler = .ok pattern → pattern.MatchesBefore own look) ∧
    (∀ source own,
      ConsumesWhole ⟨source, (Regex.seq (.look .start) own).guarded⟩ own) ∧
    ∀ compiler : Regex.Compiler, compiler.Encloses → ∀ source own pattern,
      compiler.read source.toList = .ok own → read source compiler = .ok pattern →
        pattern.ConsumesWhole own := by
  refine ⟨fun source own look index hown hlook hname => ?_,
    fun compiler hcompiler first ahead own look pattern hown hlook hcloses hname hread =>
      matchesBefore_of_read hcompiler hown hlook hcloses hname hread,
    consumesWhole_guarded, fun compiler hcompiler source own pattern hown hread => ?_⟩
  · have h := matchesBefore_guarded source hown hlook hname index 0
    rwa [Regex.shift_zero] at h
  · obtain ⟨whole, hwhole, rfl⟩ := exists_of_read hread
    obtain rfl := eq_seq_start hcompiler hown hwhole
    exact consumesWhole_guarded source own

/-- Of the letters in front of the lookahead group one is given back to it. -/
theorem lookahead_not_consumed_gives_back :
    ∃ own look pattern captures,
      Regex.read "a*".toList = .ok own ∧ Regex.read "ab".toList = .ok look ∧
      read (lookaheadSource "a*" "ab") = .ok pattern ∧
      pattern.matchStart "aaab" = some captures ∧ captures.consumed = "aa" ∧
      ∃ consumed looked rest, captures.consumed = String.ofList consumed ∧
        LooksAhead own look "aaab" consumed looked rest := by
  let own : Regex := .loop true 0 none (.set (.one 'a'))
  let look : Regex := .cat (.set (.one 'a')) (.set (.one 'b'))
  let pattern : Pattern := ⟨lookaheadSource "a*" "ab",
    .cat (.look .start) (.cat own (.group 1 (some "ahead") look))⟩
  have hown : Regex.read "a*".toList = .ok own := by decide +kernel
  have hlook : Regex.read "ab".toList = .ok look := by decide +kernel
  have hread : read (lookaheadSource "a*" "ab") = .ok pattern := by decide +kernel
  have hmatch : pattern.matchStart "aaab" = some ⟨"aaab", [some ⟨0, 2⟩, some ⟨2, 4⟩]⟩ := by
    decide +kernel
  have hbefore : pattern.MatchesBefore own look :=
    lookahead_not_consumed.2.1 .standard Regex.Compiler.standard_looksAhead _ _ _ _ _ hown hlook
      (Regex.Compiler.standard_closes hown) (by decide +kernel) hread
  exact ⟨own, look, pattern, _, hown, hlook, hread, hmatch, by decide +kernel,
    hbefore.consumes _ _ hmatch⟩

end Pattern

end RuledMarkup
