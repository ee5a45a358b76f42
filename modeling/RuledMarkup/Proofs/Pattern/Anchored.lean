import RuledMarkup.Proofs.Pattern.Consumed
import RuledMarkup.Proofs.Regex.Compilers
import RuledMarkup.Proofs.Regex.Guarded

/-!
# Matches at the start of the input

The written form of a pattern is put in a group after a start condition.  A text that is an
expression by itself stays together in that group, so that whatever is matched begins at the start
of the input, and what is consumed is read by that expression.  A text with parentheses that close
the group and open another one may have alternatives outside the group.  Then the start condition
applies to the first of them only.  All this is so whichever compiler reads the written form.

## Main definitions

* `Pattern.ConsumesStart` : the consumed text belongs to a word at the start of the input.

## Main results

* `Pattern.consumes_start` : what is consumed has been read at the start of the input.
* `Pattern.not_consumes_start` : a group that is closed early lets a later match be found.
-/

namespace RuledMarkup

open Text (byteSize slice?_of_toList)

/-- Where an expression says that it matches only at the start of the text, it does so. -/
theorem Regex.eq_nil_of_isAnchored {r : Regex} (hr : r.isAnchored = true)
    {pre word post : List Char} {bindings : Bindings} (h : r.Reads pre word post bindings) :
    pre = [] := by
  induction r generalizing pre word post bindings with
  | look l =>
    obtain rfl : l = .start := by simpa [isAnchored] using hr
    obtain ⟨-, -, hstart⟩ := h
    simpa [Look.holds, Cursor.between] using hstart
  | cat a b iha _ =>
    obtain ⟨u, v, bu, bv, -, -, hu, -⟩ := h
    exact iha hr hu
  | alt a b iha ihb =>
    obtain ⟨ha, hb⟩ : a.isAnchored = true ∧ b.isAnchored = true := by simpa [isAnchored] using hr
    rcases h with h | h
    · exact iha ha h
    · exact ihb hb h
  | loop greedy least most r ih =>
    obtain ⟨hleast, hr⟩ : 0 < least ∧ r.isAnchored = true := by simpa [isAnchored] using hr
    obtain ⟨n, hn, -, hreads⟩ := h
    obtain ⟨n, rfl⟩ : ∃ k, n = k + 1 := ⟨n - 1, by omega⟩
    obtain ⟨u, v, bu, bv, -, -, hu, -⟩ := hreads
    exact ih hr hu
  | group index name r ih =>
    obtain ⟨inner, -, h⟩ := h
    exact ih hr h
  | _ => cases hr

theorem Regex.isAnchored_seq_start (r : Regex) : (seq (.look .start) r).isAnchored = true := by
  cases r <;> rfl

namespace Pattern

/-- A pattern that can be read is an expression with its checkpoints. -/
theorem exists_of_read {source : String} {compiler : Regex.Compiler} {pattern : Pattern}
    (h : read source compiler = .ok pattern) :
    ∃ whole, compiler.read (anchoredSource source).toList = .ok whole ∧
      pattern = ⟨source, whole.guarded⟩ := by
  rw [read] at h
  cases hwhole : compiler.read (anchoredSource source).toList with
  | error e =>
    rw [hwhole] at h
    cases h
  | ok whole =>
    rw [hwhole] at h
    simp only [bind, Except.bind] at h
    split_ifs at h
    exact ⟨whole, rfl, (Except.ok.inj h).symm⟩

/-- A written form that is an expression by itself stays together behind the start condition. -/
theorem eq_seq_start {source : String} {compiler : Regex.Compiler} {own whole : Regex}
    (hcompiler : compiler.Encloses) (hown : compiler.read source.toList = .ok own)
    (hwhole : compiler.read (anchoredSource source).toList = .ok whole) :
    whole = .seq (.look .start) own := by
  rw [toList_anchoredSource rfl] at hwhole
  exact hcompiler hown hwhole

/-- The range of the lookahead group among ranges of groups, if that group took part. -/
def aheadRange? (pattern : Pattern) (bindings : Bindings) : Option Text.ByteRange :=
  pattern.ahead?.bind fun group => bindings.lookup group

/-- The input begins with a word that an expression reads there.  The consumed text is that word, or
what comes before the lookahead group in it if that group took part. -/
def ConsumesStart (pattern : Pattern) (expression : Regex) (captures : Captures) : Prop :=
  ∃ consumed looked rest bindings,
    captures.input.toList = consumed ++ looked ++ rest ∧
    expression.Reads [] (consumed ++ looked) rest bindings ∧
    captures.consumed = String.ofList consumed ∧
    (pattern.aheadRange? bindings = none → looked = []) ∧
    ∀ range ∈ pattern.aheadRange? bindings, range.start = byteSize consumed

variable {pattern : Pattern} {input source : String} {captures : Captures} {own r s : Regex}

theorem ConsumesStart.mono
    (h : ∀ {word rest bindings}, r.Reads [] word rest bindings → s.Reads [] word rest bindings)
    (hstart : pattern.ConsumesStart r captures) : pattern.ConsumesStart s captures := by
  obtain ⟨consumed, looked, rest, bindings, hinput, hreads, hconsumed⟩ := hstart
  exact ⟨consumed, looked, rest, bindings, hinput, h hreads, hconsumed⟩

/-- If the expression reads nothing but at the start of a text, then a match consumes the start of
the input. -/
theorem consumesStart_of_matchStart
    (hanchored : ∀ {pre word rest bindings}, pattern.regex.Reads pre word rest bindings → pre = [])
    (h : pattern.matchStart input = some captures) :
    pattern.ConsumesStart pattern.regex captures := by
  obtain ⟨⟨stop, bindings⟩, hsearch, rfl⟩ := Option.map_eq_some_iff.1 h
  obtain ⟨pre, word, rest, hinput, hstop, hreads⟩ := Regex.reads_of_search hsearch
  obtain rfl := hanchored hreads
  rw [List.nil_append] at hinput hstop
  have hconsumed {u v : List Char} (hinput : input.toList = u ++ v)
      (hsize : (pattern.captures input stop bindings).size = byteSize u) :
      (pattern.captures input stop bindings).consumed = String.ofList u := by
    have hslice := slice?_of_toList (s := input) (a := []) (t := u) (b := v) (by simpa using hinput)
    rw [Text.byteSize_nil, Nat.zero_add] at hslice
    rw [Captures.consumed, hsize, input_captures, Text.slice_of_slice? hslice]
  cases hahead : pattern.aheadRange? bindings with
  | none =>
    have hsize : (pattern.captures input stop bindings).size = byteSize word := by
      rw [size_captures, ← aheadRange?, hahead, Option.map_none, Option.getD_none, hstop.offset_eq]
    refine ⟨word, [], rest, bindings, by simpa using hinput, by simpa using hreads,
      hconsumed hinput hsize, fun _ => rfl, ?_⟩
    simp [hahead]
  | some range =>
    have hsize : (pattern.captures input stop bindings).size = range.start := by
      rw [size_captures, ← aheadRange?, hahead, Option.map_some, Option.getD_some]
    obtain ⟨ahead, -, hlookup⟩ := Option.bind_eq_some_iff.1 hahead
    obtain ⟨u, v, x, rfl, rfl⟩ :=
      Regex.located_reads _ _ _ _ _ hreads _ (mem_of_lookup hlookup)
    simp only [List.nil_append] at hsize hahead
    refine ⟨u, v ++ x, rest, bindings, by simpa using hinput, by simpa using hreads,
      hconsumed (v := v ++ x ++ rest) (by simpa using hinput) hsize, ?_, ?_⟩ <;> simp [hahead]

/-- Whichever compiler reads the written form, a match of the pattern consumes the start of the
input if every alternative of what has been read says that it begins there.  That is so if the
written form is an expression by itself, and the compiler reads expressions in a group as it reads
them alone.  Then that expression reads what is consumed, and what the lookahead group matches
behind it. -/
theorem consumes_start {compiler : Regex.Compiler} (hread : read source compiler = .ok pattern)
    (hmatch : pattern.matchStart input = some captures) :
    captures.input = input ∧ ∃ anchored,
      compiler.read (anchoredSource source).toList = .ok anchored ∧
      (anchored.isAnchored = true → pattern.ConsumesStart anchored captures) ∧
      (compiler.Encloses → ∀ own, compiler.read source.toList = .ok own →
        anchored.isAnchored = true ∧ pattern.ConsumesStart own captures) := by
  obtain ⟨anchored, hanchored, rfl⟩ := exists_of_read hread
  have hstart (h : anchored.isAnchored = true) :
      (⟨source, anchored.guarded⟩ : Pattern).ConsumesStart anchored captures :=
    (consumesStart_of_matchStart (fun hreads => Regex.eq_nil_of_isAnchored h
      (anchored.reads_guarded_le _ _ _ _ hreads)) hmatch).mono
      (anchored.reads_guarded_le _ _ _ _)
  refine ⟨(over_of_matchStart hmatch).input_eq, anchored, hanchored, hstart,
    fun hcompiler own hown => ?_⟩
  obtain rfl := eq_seq_start hcompiler hown hanchored
  refine ⟨own.isAnchored_seq_start, (hstart own.isAnchored_seq_start).mono fun hreads => ?_⟩
  rw [Regex.reads_seq] at hreads
  obtain ⟨u, v, bu, bv, rfl, rfl, ⟨rfl, rfl, -⟩, hv⟩ := hreads
  simpa using hv

/-- Both alternatives of this pattern are tried at the start only, and the lookahead group is read
but not consumed. -/
theorem consumes_start_before_lookahead :
    ∃ pattern captures own,
      read "a|b(?<ahead>c+)" = .ok pattern ∧ Regex.read "a|b(?<ahead>c+)".toList = .ok own ∧
      pattern.matchStart "bccd" = some captures ∧ captures.consumed = "b" ∧
      pattern.ConsumesStart own captures := by
  let own : Regex := .alt (.set (.one 'a'))
    (.cat (.set (.one 'b')) (.group 1 (some "ahead") (.loop true 1 none (.set (.one 'c')))))
  have hread : read "a|b(?<ahead>c+)" = .ok ⟨"a|b(?<ahead>c+)", .cat (.look .start) own⟩ := by
    decide +kernel
  have hown : Regex.read "a|b(?<ahead>c+)".toList = .ok own := by decide +kernel
  have hmatch : matchStart ⟨"a|b(?<ahead>c+)", .cat (.look .start) own⟩ "bccd" =
      some ⟨"bccd", [some ⟨0, 1⟩, some ⟨1, 3⟩]⟩ := by decide +kernel
  obtain ⟨-, anchored, -, -, hstart⟩ := consumes_start hread hmatch
  exact ⟨_, _, own, hread, hown, hmatch, by decide +kernel,
    (hstart Regex.Compiler.standard_encloses own hown).2⟩

/-- A group that is closed early and opened again leaves an alternative outside, and a later match
of that alternative is found: the text before it is consumed with it, although nothing at the start
of the input matches. -/
theorem not_consumes_start :
    ∃ pattern captures, read "x)|(?:y" = .ok pattern ∧ pattern.matchStart "ay" = some captures ∧
      captures.consumed = "ay" ∧
      ∀ word rest bindings, "ay".toList = word ++ rest →
        ¬ pattern.regex.Reads [] word rest bindings := by
  refine ⟨⟨"x)|(?:y", .alt (.cat (.look .start) (.set (.one 'x'))) (.set (.one 'y'))⟩,
    ⟨"ay", [some ⟨0, 2⟩]⟩, by decide +kernel, by decide +kernel, by decide +kernel, ?_⟩
  rintro word rest bindings hinput hreads
  have hchars : ['a', 'y'] = word ++ rest := hinput
  rcases hreads with ⟨u, v, bu, bv, rfl, -, ⟨rfl, -⟩, c, rfl, hc, -⟩ | ⟨c, rfl, hc, -⟩
  all_goals
    obtain ⟨rfl, -⟩ := List.cons_eq_cons.1 hchars
    cases hc

end Pattern

end RuledMarkup
