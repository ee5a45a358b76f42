import RuledMarkup.Proofs.Pattern.Groups
import RuledMarkup.Proofs.Regex.Preferred

/-!
# Which match a pattern finds

A reading of a pattern at the start of a window makes sure that the pattern matches there.  If the
pattern is a sequence with a lazy part, then the match found is the shortest one.  If the preferred
way through a sequence is known, then that is the match found.

## Main definitions

* `Pattern.opensWithin` : every match begins with one of some characters.

## Main results

* `Pattern.matchStart_eq_none` : a window that begins with another character is not matched.
* `Pattern.exists_matchStart_of_reads` : a window whose start is read is matched.
* `Pattern.exists_shortest` : the match found is the shortest one.
* `Pattern.exists_preferred` : the match found is the preferred one.
-/

namespace RuledMarkup.Pattern

open Text (byteSize)

variable {pattern : Pattern} {window : String} {captures : Captures} {stop : Cursor}
  {bindings : Bindings} {pre word post rest : List Char}

/-! ### Matches and readings -/

/-- A match of an anchored pattern reads the start of the window. -/
theorem exists_reads_of_matchStart (hanchored : pattern.regex.isAnchored = true)
    (h : pattern.matchStart window = some captures) :
    ∃ stop bindings word rest, captures = pattern.captures window stop bindings ∧
      window.toList = word ++ rest ∧ stop.At word rest ∧
      pattern.regex.Reads [] word rest bindings := by
  obtain ⟨⟨stop, bindings⟩, hsearch, rfl⟩ := Option.map_eq_some_iff.1 h
  rw [Regex.search_eq_head?_ways hanchored] at hsearch
  obtain ⟨word, rest, hwindow, hstop, hreads⟩ :=
    Regex.reads_of_head?_ways (Cursor.at_ofText window.toList) hsearch
  exact ⟨stop, bindings, word, rest, rfl, hwindow, by simpa using hstop, hreads⟩

/-- A window whose start is read is matched. -/
theorem exists_matchStart_of_reads (hanchored : pattern.regex.isAnchored = true)
    (hplain : pattern.regex.isPlain = true) (hwindow : window.toList = word ++ rest)
    (hreads : pattern.regex.Reads [] word rest bindings) :
    ∃ captures, pattern.matchStart window = some captures := by
  obtain ⟨way, hway, -⟩ := Regex.exists_mem_ways hplain window.toList.length _ _ _ _
    (.ofText window.toList, []) hreads (by simpa [hwindow] using Cursor.at_ofText (word ++ rest))
    (Nat.le_of_eq (by rw [hwindow]))
  refine Option.isSome_iff_exists.1 ?_
  rw [matchStart, Regex.search_eq_head?_ways hanchored, Option.isSome_map, List.isSome_head?]
  exact List.ne_nil_of_mem hway

/-- Does every match begin with one of the characters? -/
def opensWithin (pattern : Pattern) (chars : List Char) : Bool :=
  pattern.regex.isAnchored && pattern.regex.isNonempty && pattern.regex.startsWithin chars

/-- A window that begins with another character is not matched. -/
theorem matchStart_eq_none {chars : List Char} (hpattern : pattern.opensWithin chars = true)
    (hwindow : ∀ c ∈ window.toList.head?, c ∉ chars) : pattern.matchStart window = none := by
  simp only [opensWithin, Bool.and_eq_true] at hpattern
  obtain ⟨⟨hanchored, hnonempty⟩, hstarts⟩ := hpattern
  rw [Option.eq_none_iff_forall_ne_some]
  intro captures h
  obtain ⟨stop, bindings, word, rest, -, hsplit, -, hreads⟩ :=
    exists_reads_of_matchStart hanchored h
  have hlength := Regex.length_pos_of_isNonempty hnonempty hreads
  have hhead := Regex.head?_of_startsWithin hstarts hreads
  cases word with
  | nil => exact absurd hlength (Nat.lt_irrefl 0)
  | cons c word => exact hwindow c (by simp [hsplit]) (hhead c rfl)

/-! ### The shortest match -/

/-- The match found at a sequence with a lazy part, whose other parts before it leave no choice, is
one in which the lazy part reads the shortest word. -/
theorem exists_shortest (hanchored : pattern.regex.isAnchored = true) {before after : List Regex}
    {r : Regex} (hitems : pattern.regex.items = before ++ r :: after)
    (hbefore : before.all Regex.isDirect = true) (hr : r.isLazy = true)
    (hplain : (before ++ r :: after).all Regex.isPlain = true) {u w v : List Char}
    {bu bw bv : Bindings} (hwindow : window.toList = u ++ w ++ v ++ rest)
    (hu : Regex.ReadsEach before [] u (w ++ v ++ rest) bu) (hw : r.Reads u w (v ++ rest) bw)
    (hv : Regex.ReadsEach after (u ++ w) v rest bv) :
    ∃ w' v' rest' bw' bv' stop, window.toList = u ++ w' ++ v' ++ rest' ∧
      w'.length ≤ w.length ∧ r.Reads u w' (v' ++ rest') bw' ∧
      Regex.ReadsEach after (u ++ w') v' rest' bv' ∧ stop.At (u ++ w' ++ v') rest' ∧
      pattern.regex.Reads [] (u ++ w' ++ v') rest' (bv' ++ bw' ++ bu) ∧
      pattern.matchStart window = some (pattern.captures window stop (bv' ++ bw' ++ bu)) := by
  obtain ⟨w', v', rest', bw', bv', stop, hsplit, hle, hw', hv', hstop, hhead⟩ :=
    Regex.exists_shortest hbefore hr hplain hu hw hv (Nat.le_refl _)
  rw [← hwindow] at hsplit
  rw [← hwindow, ← hitems, Regex.waysEach_items] at hhead
  have hsearch : pattern.regex.search window.toList = some (stop, bv' ++ bw' ++ bu) := by
    rw [Regex.search_eq_head?_ways hanchored, ← hhead, hwindow]
  obtain ⟨word, rest'', hword, hstop', hreads⟩ :=
    Regex.reads_of_head?_ways (Cursor.at_ofText window.toList) hhead
  obtain rfl : rest'' = rest' := hstop'.rest_eq.symm.trans hstop.rest_eq
  obtain rfl : word = u ++ w' ++ v' := List.append_cancel_right (hword.symm.trans hsplit)
  exact ⟨w', v', rest'', bw', bv', stop, hsplit, hle, hw', hv', hstop, hreads,
    by rw [matchStart, hsearch, Option.map_some]⟩

/-- The match found goes the preferred way. -/
theorem exists_preferred (hanchored : pattern.regex.isAnchored = true) {items : List Regex}
    (hitems : pattern.regex.items = items) (hwindow : window.toList = word ++ rest)
    (h : Regex.PrefersEach items [] word rest bindings) :
    ∃ stop, stop.At word rest ∧ pattern.regex.Reads [] word rest bindings ∧
      pattern.matchStart window = some (pattern.captures window stop bindings) := by
  obtain ⟨stop, hstop, hhead⟩ := h.exists_head? window.toList.length (.ofText window.toList, [])
    (Nat.le_of_eq (by rw [hwindow])) (by rw [← hwindow]; exact Cursor.at_ofText _)
  rw [← hitems, Regex.waysEach_items, List.append_nil] at hhead
  obtain ⟨word', rest', hword, hstop', hreads⟩ :=
    Regex.reads_of_head?_ways (Cursor.at_ofText window.toList) hhead
  obtain rfl : rest' = rest := hstop'.rest_eq.symm.trans hstop.rest_eq
  obtain rfl : word' = word := List.append_cancel_right (hword.symm.trans hwindow)
  exact ⟨stop, hstop, hreads,
    by rw [matchStart, Regex.search_eq_head?_ways hanchored, hhead, Option.map_some]⟩

/-! ### Captures -/

/-- What is consumed, if its number of bytes is known. -/
theorem toList_consumed (hwindow : window.toList = word ++ rest)
    (hsize : (pattern.captures window stop bindings).size = byteSize word) :
    (pattern.captures window stop bindings).consumed.toList = word := by
  have hslice := Text.slice?_of_toList (s := window) (a := []) (t := word) (b := rest)
    (by simpa using hwindow)
  rw [Text.byteSize_nil, Nat.zero_add] at hslice
  rw [Captures.consumed, hsize, input_captures, Text.slice_of_slice? hslice, String.toList_ofList]

/-- A match is cut where the lookahead group begins. -/
theorem size_of_lookup {ahead start stop' : Nat} (hahead : pattern.ahead? = some ahead)
    (hlookup : bindings.lookup ahead = some ⟨start, stop'⟩) :
    (pattern.captures window stop bindings).size = start := by
  rw [size_captures, hahead, Option.bind_some, hlookup]
  rfl

/-- Without lookahead group a match is what has been read. -/
theorem size_of_ahead?_eq_none (hahead : pattern.ahead? = none) :
    (pattern.captures window stop bindings).size = stop.offset := by
  rw [size_captures, hahead]
  rfl

/-- A group and what stands around it in what is consumed. -/
theorem frames_captures {group : Nat} {before inner after : List Char}
    (hreads : pattern.regex.Reads pre word post bindings) (hgroup : group ≠ 0)
    (hlookup : bindings.lookup group = some ⟨byteSize before, byteSize (before ++ inner)⟩)
    (hwindow : window.toList = before ++ inner ++ after ++ rest)
    (hsize : (pattern.captures window stop bindings).size = byteSize (before ++ inner ++ after)) :
    (pattern.captures window stop bindings).Frames group before inner after where
  toList_consumed := toList_consumed hwindow hsize
  range?_eq := (range?_captures hreads hgroup).trans hlookup

end RuledMarkup.Pattern
