import RuledMarkup.Code.Languages
import RuledMarkup.Proofs.Pattern.Shortest

/-!
# Where a string literal ends

A string literal begins with a quote.  A scan behind that quote skips each backslash together with
the character after it, and the first quote it comes to that has no word character after it ends the
literal.  The patterns for strings try one place after the other, and their rounds could in
principle come to a place in several ways; but a backslash can be read in one way only, so they come
to the places of the scan and to no others.

## Main definitions

* `Code.literal?` : the literal at the start of a text, found by the scan.
* `Code.Scanned` : the scan passes over all of a text.
* `Code.LiteralForm` : a pattern is one for literals between quotes.

## Main results

* `Code.scan?_sound`, `Code.exists_scan?` : the scan finds the first quote that ends a literal.
* `Code.literal?_append_backslash` : a backslash at the end of a text completes no literal.
* `Code.rel_head?_ways_rounds` : the rounds of a pattern find what the scan finds.
* `Code.strings_read_as_scanned` : the patterns for strings find what the scan finds.
-/

namespace RuledMarkup.Code

open Text (byteSize isWord)
open Regex (Way waysEach waysExactly waysUpTo)

variable {quote : Char} {text found body rest pre : List Char}

/-! ### The scan -/

/-- A quote before the text ends a literal: no word character comes after it. -/
def endsBefore (rest : List Char) : Bool := rest.head?.all fun c => !isWord c

/-- A literal behind its first quote, with the quote that ends it. -/
def scan? (quote : Char) : List Char → Option (List Char)
  | [] => none
  | ['\\'] => none
  | '\\' :: c :: rest => (scan? quote rest).map fun found => '\\' :: c :: found
  | c :: rest =>
    if c = quote ∧ endsBefore rest = true then some [c]
    else (scan? quote rest).map fun found => c :: found

/-- The literal at the start of a text. -/
def literal? (quote : Char) : List Char → Option (List Char)
  | [] => none
  | c :: rest => if c = quote then (scan? quote rest).map fun found => c :: found else none

/-- The scan passes over all of the text unless it ends before: the text consists of characters with
a backslash before them, and of characters other than a backslash. -/
inductive Scanned : List Char → Prop
  | nil : Scanned []
  | escaped (c : Char) {text : List Char} (h : Scanned text) : Scanned ('\\' :: c :: text)
  | plain {c : Char} (hc : c ≠ '\\') {text : List Char} (h : Scanned text) : Scanned (c :: text)

theorem scan?_cons {c : Char} (hc : c ≠ '\\') (rest : List Char) :
    scan? quote (c :: rest) =
      if c = quote ∧ endsBefore rest = true then some [c]
      else (scan? quote rest).map fun found => c :: found := by
  rw [scan?]
  · rintro rfl
    exact absurd rfl hc
  · rintro _ _ rfl
    exact absurd rfl hc

theorem scan?_of_ends {c : Char} (hc : c ≠ '\\') (hquote : c = quote)
    (hrest : endsBefore rest = true) : scan? quote (c :: rest) = some [c] := by
  rw [scan?_cons hc, if_pos ⟨hquote, hrest⟩]

theorem scan?_of_not_ends {c : Char} (hc : c ≠ '\\') (h : c = quote → endsBefore rest = false) :
    scan? quote (c :: rest) = (scan? quote rest).map fun found => c :: found := by
  rw [scan?_cons hc, if_neg fun hend => by simp [h hend.1] at hend]

/-- Something holds of all texts if it holds of those that are left when the scan fails, and is kept
by each of its steps. -/
@[elab_as_elim] theorem scan_induction {P : List Char → Prop} (nil : P []) (lone : P ['\\'])
    (escaped : ∀ c rest, P rest → P ('\\' :: c :: rest))
    (plain : ∀ c rest, c ≠ '\\' → P rest → P (c :: rest)) : ∀ text, P text
  | [] => nil
  | [c] => by
    by_cases hc : c = '\\'
    · rwa [hc]
    · exact plain c [] hc nil
  | c :: d :: rest => by
    by_cases hc : c = '\\'
    · rw [hc]
      exact escaped d rest (scan_induction nil lone escaped plain rest)
    · exact plain c (d :: rest) hc (scan_induction nil lone escaped plain (d :: rest))

/-- What the scan finds is a text it has passed over, with a quote that ends the literal. -/
theorem scan?_sound (h : scan? quote text = some found) :
    ∃ body rest, text = body ++ quote :: rest ∧ found = body ++ [quote] ∧ Scanned body ∧
      endsBefore rest = true := by
  induction text using scan_induction generalizing found with
  | nil | lone => simp [scan?] at h
  | escaped c rest ih =>
    rw [scan?] at h
    obtain ⟨found, hfound, rfl⟩ := Option.map_eq_some_iff.1 h
    obtain ⟨body, rest, rfl, rfl, hbody, hrest⟩ := ih hfound
    exact ⟨'\\' :: c :: body, rest, rfl, rfl, .escaped c hbody, hrest⟩
  | plain c rest hc ih =>
    rw [scan?_cons hc] at h
    split_ifs at h with hend
    · obtain ⟨rfl, hrest⟩ := hend
      exact ⟨[], rest, rfl, (Option.some.inj h).symm, .nil, hrest⟩
    · obtain ⟨found, hfound, rfl⟩ := Option.map_eq_some_iff.1 h
      obtain ⟨body, rest, rfl, rfl, hbody, hrest⟩ := ih hfound
      exact ⟨c :: body, rest, rfl, rfl, .plain hc hbody, hrest⟩

/-- If the scan comes to a quote that ends the literal, then it finds that or an earlier one. -/
theorem exists_scan? (hquote : quote ≠ '\\') (hbody : Scanned body)
    (hrest : endsBefore rest = true) :
    ∃ found, scan? quote (body ++ quote :: rest) = some found ∧
      found.length ≤ body.length + 1 := by
  induction hbody with
  | nil => exact ⟨[quote], scan?_of_ends hquote rfl hrest, Nat.le_refl 1⟩
  | @escaped c body _ ih =>
    obtain ⟨found, hfound, hle⟩ := ih
    refine ⟨'\\' :: c :: found, ?_, by simpa using hle⟩
    rw [List.cons_append, List.cons_append, scan?, hfound, Option.map_some]
  | @plain c hc body _ ih =>
    obtain ⟨found, hfound, hle⟩ := ih
    rw [List.cons_append, scan?_cons hc]
    split_ifs
    · exact ⟨[c], rfl, by simp⟩
    · exact ⟨c :: found, by rw [hfound, Option.map_some], by simpa using hle⟩

/-- A quote that the scan comes to before the one it finds does not end the literal. -/
theorem endsBefore_of_earlier (hquote : quote ≠ '\\') {u v : List Char} (hu : Scanned u)
    (h : scan? quote (u ++ quote :: (v ++ quote :: rest)) = some (u ++ quote :: (v ++ [quote]))) :
    endsBefore (v ++ quote :: rest) = false := by
  by_contra hends
  obtain ⟨found, hfound, hle⟩ := exists_scan? hquote hu ((Bool.not_eq_false _).mp hends)
  obtain rfl := Option.some.inj (h.symm.trans hfound)
  simp only [List.length_append, List.length_cons, List.length_nil] at hle
  omega

/-- A literal is a quote and what is scanned behind it. -/
theorem literal?_eq_some_iff :
    literal? quote text = some found ↔
      ∃ rest inner, text = quote :: rest ∧ found = quote :: inner ∧
        scan? quote rest = some inner := by
  cases text with
  | nil => simp [literal?]
  | cons c rest =>
    rw [literal?]
    by_cases hc : c = quote
    · rw [if_pos hc, hc, Option.map_eq_some_iff]
      constructor
      · rintro ⟨inner, hscan, rfl⟩
        exact ⟨rest, inner, rfl, rfl, hscan⟩
      · rintro ⟨_, inner, heq, rfl, hscan⟩
        obtain ⟨-, rfl⟩ := List.cons.inj heq
        exact ⟨inner, hscan, rfl⟩
    · simp [hc]

/-- A backslash is no word character, so a quote before it ends a literal. -/
theorem endsBefore_append_backslash (rest : List Char) :
    endsBefore (rest ++ ['\\']) = endsBefore rest := by
  cases rest with
  | nil => decide +kernel
  | cons c rest => rfl

theorem scan?_append_backslash (quote : Char) (text : List Char) :
    scan? quote (text ++ ['\\']) = scan? quote text := by
  induction text using scan_induction with
  | nil | lone => simp [scan?]
  | escaped c rest ih => rw [List.cons_append, List.cons_append, scan?, scan?, ih]
  | plain c rest hc ih =>
    rw [List.cons_append, scan?_cons hc, scan?_cons hc, ih, endsBefore_append_backslash]

/-- A backslash at the end of a text completes no literal. -/
theorem literal?_append_backslash (hquote : quote ≠ '\\') (text : List Char) :
    literal? quote (text ++ ['\\']) = literal? quote text := by
  cases text with
  | nil => exact if_neg hquote.symm
  | cons c rest => rw [List.cons_append, literal?, literal?, scan?_append_backslash]

/-! ### The patterns -/

/-- A round between the quotes: a backslash with a character after it, or another character. -/
def literalRound : Regex :=
  .alt (.cat (.set (.one '\\')) (.set (.union .space (.compl .space))))
    (.set (.compl (.one '\\')))

/-- What ends a literal: a quote, and no word character in the lookahead group. -/
def literalEnd (quote : Char) : List Regex :=
  [.set (.one quote), .ahead 1 (some "ahead") (.compl .word)]

/-- A pattern is one for literals between quotes. -/
structure LiteralForm (pattern : Pattern) (quote : Char) : Prop where
  isAnchored : pattern.regex.isAnchored = true
  items : pattern.regex.items =
    .look .start :: .set (.one quote) :: .loop false 0 none literalRound :: literalEnd quote
  ahead? : pattern.ahead? = some 1
  quote_ne : quote ≠ '\\'

theorem literalForm_strings : LiteralForm strings '"' := by constructor <;> decide +kernel

theorem literalForm_singleQuoted : LiteralForm singleQuoted '\x27' := by
  constructor <;> decide +kernel

theorem endsBefore_iff :
    endsBefore rest = true ↔ ∀ c ∈ rest.head?, (CharSet.compl .word).mem c = true := by
  cases rest <;> simp [endsBefore, CharSet.mem]

variable (bound : Nat) {way : Way} {c : Char}

/-- Before a quote that ends a literal, the lookahead group begins behind the quote. -/
theorem exists_waysEach_literalEnd (hrest : endsBefore rest = true)
    (hat : way.1.At pre (quote :: rest)) :
    ∃ way', (waysEach bound (literalEnd quote) way).head? = some way' ∧
      (way'.2.lookup 1).map (·.start) = some (byteSize (pre ++ [quote])) := by
  have hoffset : (way.1.next quote rest).offset = byteSize (pre ++ [quote]) := hat.next.offset_eq
  rw [literalEnd, waysEach, Regex.ways_set_of_at (by simp [CharSet.mem]) hat,
    List.flatMap_singleton, Regex.waysEach_singleton, ← hoffset]
  cases rest with
  | nil => exact ⟨_, rfl, rfl⟩
  | cons c rest =>
    have hc : (CharSet.compl .word).mem c = true := endsBefore_iff.1 hrest c rfl
    rw [Regex.ahead, Regex.ways, Regex.ways, Regex.ways_set_of_at hc hat.next]
    exact ⟨_, rfl, rfl⟩

/-- Where no quote stands that ends a literal there is no way to end it. -/
theorem waysEach_literalEnd_eq_nil
    (htext : ∀ rest, text = quote :: rest → endsBefore rest = false) (hat : way.1.At pre text) :
    waysEach bound (literalEnd quote) way = [] := by
  refine List.eq_nil_iff_forall_not_mem.2 fun way' hway' => ?_
  obtain ⟨word, post, bindings, rfl, -, -, hreads⟩ := Regex.goes_of_mem_waysEach hway' pre text hat
  obtain ⟨behind, rfl, hahead⟩ := Regex.readsEach_one_cons.1 hreads
  have hends := endsBefore_iff.2 (Regex.of_readsEach_ahead hahead).1
  rw [htext (behind ++ post) rfl] at hends
  cases hends

/-- A character with a backslash before it is read in one way. -/
theorem ways_round_escaped (hat : way.1.At pre ('\\' :: c :: rest)) :
    ∃ way', way'.1.At (pre ++ ['\\', c]) rest ∧ literalRound.ways bound way = [way'] := by
  have hc : (CharSet.union .space (.compl .space)).mem c = true := CharSet.mem_of_isFull rfl c
  refine ⟨((way.1.next '\\' (c :: rest)).next c rest, way.2), by simpa using hat.next.next, ?_⟩
  rw [literalRound, Regex.ways, Regex.ways_set_eq_nil (by simp [CharSet.mem]) hat, List.append_nil,
    Regex.ways, Regex.ways_set_of_at rfl hat, List.flatMap_singleton,
    Regex.ways_set_of_at hc hat.next]

/-- A character other than a backslash is read in one way. -/
theorem ways_round_plain (hc : c ≠ '\\') (hat : way.1.At pre (c :: rest)) :
    ∃ way', way'.1.At (pre ++ [c]) rest ∧ literalRound.ways bound way = [way'] := by
  refine ⟨(way.1.next c rest, way.2), hat.next, ?_⟩
  rw [literalRound, Regex.ways, Regex.ways_set_of_at (by simp [CharSet.mem, hc]) hat, Regex.ways,
    Regex.ways_set_eq_nil (by simp [CharSet.mem, hc]) hat, List.flatMap_nil, List.nil_append]

/-- There is no round for a backslash at the end. -/
theorem ways_round_eq_nil (htext : text = [] ∨ text = ['\\']) (hat : way.1.At pre text) :
    literalRound.ways bound way = [] := by
  rcases htext with rfl | rfl
  · simp [literalRound, Regex.ways, hat.rest_eq]
  · simp [literalRound, Regex.ways, hat.rest_eq, Cursor.next, CharSet.mem]

/-- The lookahead group begins behind the text found. -/
def EndsBehind (pre found : List Char) (way : Way) : Prop :=
  (way.2.lookup 1).map (·.start) = some (byteSize (pre ++ found))

theorem EndsBehind.map (skipped : List Char) {found? : Option (List Char)} {way? : Option Way}
    (h : Option.Rel (EndsBehind (pre ++ skipped)) found? way?) :
    Option.Rel (EndsBehind pre) (found?.map (skipped ++ ·)) way? := by
  cases h with
  | none => exact .none
  | some h => exact .some (by simpa [EndsBehind] using h)

/-- The rounds of a pattern find what the scan finds. -/
theorem rel_head?_ways_rounds (hquote : quote ≠ '\\') {n : Nat} (hn : text.length ≤ n)
    (hat : way.1.At pre text) :
    Option.Rel (EndsBehind pre) (scan? quote text)
      ((waysUpTo false (literalRound.ways bound) n way).flatMap
        (waysEach bound (literalEnd quote))).head? := by
  -- A backslash is no quote, so nothing ends before one.
  have hbackslash {text' : List Char} : ∀ rest, '\\' :: text' = quote :: rest →
      endsBefore rest = false := fun rest heq => absurd (List.cons.inj heq).1.symm hquote
  induction text using scan_induction generalizing n way pre with
  | nil =>
    have hend : waysEach bound (literalEnd quote) way = [] :=
      waysEach_literalEnd_eq_nil bound (by simp) hat
    rw [Regex.lazy_eq_nil hend (ways_round_eq_nil bound (.inl rfl) hat)]
    exact .none
  | lone =>
    rw [Regex.lazy_eq_nil (waysEach_literalEnd_eq_nil bound hbackslash hat)
      (ways_round_eq_nil bound (.inr rfl) hat)]
    exact .none
  | escaped c rest ih =>
    obtain ⟨n, rfl⟩ := Nat.exists_eq_add_one.2 (Nat.lt_of_lt_of_le (Nat.succ_pos _) hn)
    obtain ⟨way', hat', hround⟩ := ways_round_escaped bound hat
    rw [Regex.lazy_succ (waysEach_literalEnd_eq_nil bound hbackslash hat) hround, scan?]
    exact EndsBehind.map ['\\', c] (ih (by simp at hn; omega) hat')
  | plain c rest hc ih =>
    obtain ⟨n, rfl⟩ := Nat.exists_eq_add_one.2 (Nat.lt_of_lt_of_le (Nat.succ_pos _) hn)
    by_cases hend : c = quote ∧ endsBefore rest = true
    · obtain ⟨rfl, hrest⟩ := hend
      obtain ⟨way', hhead, hlookup⟩ := exists_waysEach_literalEnd bound hrest hat
      rw [Regex.head?_lazy_of_head? hhead, scan?_of_ends hc rfl hrest]
      exact .some hlookup
    · have hnot : c = quote → endsBefore rest = false := by simpa using hend
      have hother : ∀ rest', c :: rest = quote :: rest' → endsBefore rest' = false := by
        rintro _ heq
        obtain ⟨hquote, rfl⟩ := List.cons.inj heq
        exact hnot hquote
      obtain ⟨way', hat', hround⟩ := ways_round_plain bound hc hat
      rw [Regex.lazy_succ (waysEach_literalEnd_eq_nil bound hother hat) hround,
        scan?_of_not_ends hc hnot]
      exact EndsBehind.map [c] (ih (Nat.le_of_succ_le_succ hn) hat')

/-! ### Matches -/

variable {pattern : Pattern} {window : String} {captures : Captures}

/-- A pattern for literals finds what the scan finds. -/
theorem LiteralForm.rel_search (hpattern : LiteralForm pattern quote) (text : List Char) :
    Option.Rel (EndsBehind []) (literal? quote text) (pattern.regex.search text) := by
  rw [Regex.search_eq_head?_ways hpattern.isAnchored, ← Regex.waysEach_items, hpattern.items]
  have hat := Cursor.at_ofText text
  generalize Cursor.ofText text = cursor at hat
  have hstart : Look.holds cursor .start = true := hat.holds_eq .start
  rw [waysEach, Regex.ways, if_pos hstart, List.flatMap_singleton, waysEach]
  cases text with
  | nil =>
    rw [Regex.ways_set_eq_nil (by simp) hat]
    exact .none
  | cons c rest =>
    rw [literal?]
    by_cases hc : c = quote
    · rw [if_pos hc, Regex.ways_set_of_at (by simp [hc, CharSet.mem]) hat, List.flatMap_singleton,
        waysEach, Regex.ways, waysExactly, List.flatMap_singleton]
      exact EndsBehind.map [c]
        (rel_head?_ways_rounds _ hpattern.quote_ne (Nat.le_succ _) hat.next)
    · rw [if_neg hc, Regex.ways_set_eq_nil (by simp [hc, CharSet.mem]) hat]
      exact .none

/-- A pattern for literals consumes what the scan finds. -/
theorem LiteralForm.map_consumed (hpattern : LiteralForm pattern quote) (window : String) :
    (pattern.matchStart window).map (fun captures => captures.consumed.toList) =
      literal? quote window.toList := by
  have hrel := hpattern.rel_search window.toList
  rw [Pattern.matchStart]
  generalize pattern.regex.search window.toList = way? at hrel
  cases hfound : literal? quote window.toList with
  | none =>
    rw [hfound] at hrel
    cases hrel
    rfl
  | some found =>
    rw [hfound] at hrel
    cases hrel with
    | @some _ way hends =>
      obtain ⟨_, _, hwindow, rfl, hscan⟩ := literal?_eq_some_iff.1 hfound
      obtain ⟨body, rest, rfl, rfl, -⟩ := scan?_sound hscan
      obtain ⟨⟨start, finish⟩, hlookup, hstart⟩ := Option.map_eq_some_iff.1 hends
      have hsplit : window.toList = quote :: (body ++ [quote]) ++ rest := by simpa using hwindow
      have hsize : (pattern.captures window way.1 way.2).size = start :=
        Pattern.size_of_lookup hpattern.ahead? hlookup
      have hconsumed := Pattern.toList_consumed hsplit (hsize.trans hstart)
      rw [Option.map_some, Option.map_some, hconsumed]

/-- A pattern for literals matches where the scan comes to a quote that ends the literal. -/
theorem LiteralForm.isSome_matchStart_iff (hpattern : LiteralForm pattern quote)
    (window : String) :
    (pattern.matchStart window).isSome = true ↔
      ∃ body rest, window.toList = quote :: (body ++ quote :: rest) ∧ Scanned body ∧
        endsBefore rest = true := by
  rw [← Option.isSome_map (f := fun captures => captures.consumed.toList),
    hpattern.map_consumed]
  constructor
  · intro h
    obtain ⟨found, hfound⟩ := Option.isSome_iff_exists.1 h
    obtain ⟨_, _, hwindow, rfl, hscan⟩ := literal?_eq_some_iff.1 hfound
    obtain ⟨body, rest, rfl, -, hbody, hrest⟩ := scan?_sound hscan
    exact ⟨body, rest, hwindow, hbody, hrest⟩
  · rintro ⟨body, rest, hwindow, hbody, hrest⟩
    obtain ⟨found, hfound, -⟩ := exists_scan? hpattern.quote_ne hbody hrest
    exact Option.isSome_iff_exists.2
      ⟨_, literal?_eq_some_iff.2 ⟨_, found, hwindow, rfl, hfound⟩⟩

/-- A match of a pattern for literals ends with the first quote that the scan comes to and that
ends the literal. -/
theorem LiteralForm.exists_of_matchStart (hpattern : LiteralForm pattern quote)
    (h : pattern.matchStart window = some captures) :
    ∃ body rest, window.toList = quote :: (body ++ quote :: rest) ∧
      captures.consumed.toList = quote :: (body ++ [quote]) ∧ Scanned body ∧
      endsBefore rest = true ∧
      ∀ u v, body = u ++ quote :: v → Scanned u → endsBefore (v ++ quote :: rest) = false := by
  have hfound := hpattern.map_consumed window
  rw [h, Option.map_some] at hfound
  obtain ⟨_, _, hwindow, hconsumed, hscan⟩ := literal?_eq_some_iff.1 hfound.symm
  obtain ⟨body, rest, rfl, rfl, hbody, hrest⟩ := scan?_sound hscan
  refine ⟨body, rest, hwindow, hconsumed, hbody, hrest, ?_⟩
  rintro u v rfl hu
  exact endsBefore_of_earlier hpattern.quote_ne hu (by simpa using hscan)

theorem literalForm_of_mem
    (hpattern : (pattern, quote) ∈ [(strings, '"'), (singleQuoted, '\x27')]) :
    LiteralForm pattern quote := by
  simp only [List.mem_cons, Prod.mk.injEq, List.not_mem_nil, or_false] at hpattern
  obtain ⟨rfl, rfl⟩ | ⟨rfl, rfl⟩ := hpattern
  · exact literalForm_strings
  · exact literalForm_singleQuoted

/-- The patterns for strings find what the scan finds: they match where a text begins with a quote
and the scan behind it comes to a quote that ends the literal, and they consume the text up to and
with the first such quote.  A backslash at the end of a text makes no difference. -/
theorem strings_read_as_scanned
    (hpattern : (pattern, quote) ∈ [(strings, '"'), (singleQuoted, '\x27')]) (window : String) :
    (pattern.matchStart window).map (fun captures => captures.consumed.toList) =
        literal? quote window.toList ∧
      ((pattern.matchStart window).isSome = true ↔
        ∃ body rest, window.toList = quote :: (body ++ quote :: rest) ∧ Scanned body ∧
          endsBefore rest = true) ∧
      (∀ captures, pattern.matchStart window = some captures →
        ∃ body rest, window.toList = quote :: (body ++ quote :: rest) ∧
          captures.consumed.toList = quote :: (body ++ [quote]) ∧ Scanned body ∧
          endsBefore rest = true ∧
          ∀ u v, body = u ++ quote :: v → Scanned u → endsBefore (v ++ quote :: rest) = false) ∧
      (pattern.matchStart (window ++ "\\")).map (fun captures => captures.consumed.toList) =
        (pattern.matchStart window).map fun captures => captures.consumed.toList := by
  have hform := literalForm_of_mem hpattern
  refine ⟨hform.map_consumed window, hform.isSome_matchStart_iff window,
    fun _ => hform.exists_of_matchStart, ?_⟩
  rw [hform.map_consumed, hform.map_consumed, String.toList_append]
  exact literal?_append_backslash hform.quote_ne _

/-- A quote before a letter and one behind a backslash do not end the literal. -/
theorem strings_read_as_scanned_past_letters :
    (strings.matchStart "\"a\"b\\\"\" c\"").map (fun captures => captures.consumed.toList) =
      some "\"a\"b\\\"\"".toList := by
  rw [(strings_read_as_scanned List.mem_cons_self _).1]
  decide +kernel

end RuledMarkup.Code
