import Mathlib.Data.List.TakeWhile
import RuledMarkup.Proofs.Parse.Windows
import RuledMarkup.Proofs.Regex.Strands

/-!
# What a pattern consumes

The captures of a match are slices of the window.  If the lookahead group stands at the end of a
pattern, then what a match consumes is what the parts of a strand before that group read.

## Main definitions

* `Pattern.consuming` : the parts of a strand before the lookahead group.
* `Pattern.isCut` : a pattern is matched at the start of a text, and its lookahead group stands at
  the end.
* `Pattern.Consumed` : parts have read what a match consumes.

## Main results

* `Pattern.over_of_matchStart` : the captures of every match are over the window.
* `Pattern.exists_consumed` : what is consumed has been read by the parts before the lookahead
  group.
* `Pattern.isSome_matchStart` : some patterns match every text that is not empty.
-/

namespace RuledMarkup

open Text (byteSize byteSize_append slice?_of_toList)

/-- What is found in a table is in the table. -/
theorem mem_of_lookup {α β : Type} [BEq α] [LawfulBEq α] {table : List (α × β)} {key : α}
    {value : β} (h : table.lookup key = some value) : (key, value) ∈ table := by
  obtain ⟨before, after, rfl, -⟩ := List.lookup_eq_some_iff.1 h
  simp

/-- Is the expression the group with a number? -/
def Regex.isGroup : Regex → Nat → Bool
  | group i _ _, index => i = index
  | _, _ => false

namespace Pattern

variable {pattern : Pattern} {input : String} {stop : Cursor} {bindings : Bindings}
  {pre word post : List Char}

/-! ### The captures of a match -/

@[simp] theorem input_captures : (pattern.captures input stop bindings).input = input := rfl

theorem size_captures :
    (pattern.captures input stop bindings).size =
      ((pattern.ahead?.bind fun group => bindings.lookup group).map (·.start)).getD stop.offset :=
  rfl

theorem range?_captures_zero :
    (pattern.captures input stop bindings).range? 0 =
      some ⟨0, (pattern.captures input stop bindings).size⟩ := rfl

/-- Group zero apart, a group has the range that the match has given it. -/
theorem range?_captures (h : pattern.regex.Reads pre word post bindings) {group : Nat}
    (hgroup : group ≠ 0) :
    (pattern.captures input stop bindings).range? group = bindings.lookup group := by
  obtain ⟨i, rfl⟩ := Nat.exists_eq_succ_of_ne_zero hgroup
  by_cases hi : i < pattern.groupCount - 1
  · simp [Captures.range?, captures, List.getElem?_map, List.getElem?_range hi]
  · have hindex : i + 1 ∉ Regex.indicesEach [pattern.regex] := by
      intro hmem
      have := Regex.lt_groupCount (r := pattern.regex) (by simpa [Regex.indicesEach] using hmem)
      exact hi (by rw [groupCount]; omega)
    rw [Regex.lookup_eq_none (by rwa [Regex.readsEach_singleton]) hindex]
    have hnone : (List.range (pattern.groupCount - 1))[i]? = none :=
      List.getElem?_eq_none (by simpa using hi)
    simp [Captures.range?, captures, List.getElem?_map, hnone]

/-- A piece of what is read is a slice. -/
theorem isSome_slice?_of_isPiece (hinput : input.toList = pre ++ word ++ post)
    {range : Text.ByteRange} (h : Regex.IsPiece pre word range) :
    (Text.slice? input range).isSome = true := by
  obtain ⟨u, v, x, rfl, rfl⟩ := h
  rw [byteSize_append (pre ++ u),
    slice?_of_toList (a := pre ++ u) (t := v) (b := x ++ post) (by simp [hinput])]
  rfl

/-- A prefix is a slice. -/
theorem isSome_slice?_prefix {u v : List Char} (hinput : input.toList = u ++ v) :
    (Text.slice? input ⟨0, byteSize u⟩).isSome = true := by
  have := slice?_of_toList (s := input) (a := []) (t := u) (b := v) (by simp [hinput])
  rw [Text.byteSize_nil, Nat.zero_add] at this
  rw [this]
  rfl

/-- The captures of every match are over the window. -/
theorem over_of_matchStart {captures : Captures} (h : pattern.matchStart input = some captures) :
    captures.Over input := by
  obtain ⟨⟨stop, bindings⟩, hsearch, rfl⟩ := Option.map_eq_some_iff.1 h
  obtain ⟨pre, word, post, hinput, hstop, hreads⟩ := Regex.reads_of_search hsearch
  have hpiece : ∀ {group range}, bindings.lookup group = some range →
      Regex.IsPiece pre word range := fun hlookup =>
    Regex.located_reads _ _ _ _ _ hreads _ (mem_of_lookup hlookup)
  refine ⟨rfl, ?_, ?_⟩
  · rintro r hr
    cases range?_captures_zero.symm.trans hr
    rfl
  · rintro group r hr
    by_cases hgroup : group = 0
    · subst hgroup
      cases range?_captures_zero.symm.trans hr
      rw [size_captures]
      cases hahead : pattern.ahead?.bind fun group => bindings.lookup group with
      | none =>
        rw [Option.map_none, Option.getD_none, hstop.offset_eq]
        exact isSome_slice?_prefix hinput
      | some range =>
        obtain ⟨ahead, -, hlookup⟩ := Option.bind_eq_some_iff.1 hahead
        obtain ⟨u, v, x, rfl, rfl⟩ := hpiece hlookup
        exact isSome_slice?_prefix (u := pre ++ u) (v := v ++ x ++ post) (by simp [hinput])
    · rw [range?_captures hreads hgroup] at hr
      exact isSome_slice?_of_isPiece hinput (hpiece hr)

end Pattern

namespace Rule

variable {R T S : Type}

theorem keepsToWindow_matching (pattern : Pattern)
    (build : Captures → S → Except ParseError (Spec R T S)) :
    (matching pattern build).KeepsToWindow :=
  fun _ _ _ _ hmatch => Pattern.over_of_matchStart hmatch

/-- What a rule matches at the starts of lines it matches. -/
theorem tryMatch_of_atLineStart {rule : Rule R T S} {window : String} {last : Option String}
    {state : S} {captures : Captures}
    (h : rule.atLineStart.tryMatch window last state = some captures) :
    rule.tryMatch window last state = some captures := by
  rw [Rule.atLineStart] at h
  dsimp only at h
  split_ifs at h
  exact h

theorem KeepsToWindow.atLineStart {rule : Rule R T S} (h : rule.KeepsToWindow) :
    rule.atLineStart.KeepsToWindow := by
  intro window last state captures hmatch
  exact h (tryMatch_of_atLineStart hmatch)

/-- A rule for lines only matches at the start of a line. -/
theorem startsLine_of_atLineStart {rule : Rule R T S} {window : String} {last : Option String}
    {state : S} (h : (rule.atLineStart.tryMatch window last state).isSome = true) :
    startsLine last = true := by
  rw [Rule.atLineStart] at h
  dsimp only at h
  split_ifs at h with hlast
  · exact hlast
  · cases h

theorem tryMatch_atLineStart_eq_none {rule : Rule R T S} {window : String} {last : Option String}
    {state : S} (h : startsLine last = true → rule.tryMatch window last state = none) :
    rule.atLineStart.tryMatch window last state = none := by
  rw [Rule.atLineStart]
  dsimp only
  split_ifs with hlast
  · exact h hlast
  · rfl

end Rule

namespace Pattern

variable {pattern : Pattern} {input : String} {stop : Cursor} {bindings : Bindings}
  {pre word post : List Char}

/-! ### What is consumed -/

/-- The parts of a strand before the lookahead group. -/
def consuming (pattern : Pattern) (strand : List Regex) : List Regex :=
  strand.takeWhile fun r => !pattern.ahead?.any r.isGroup

/-- The lookahead group of a strand, if it has one, and the parts after it. -/
def looking (pattern : Pattern) (strand : List Regex) : List Regex :=
  strand.dropWhile fun r => !pattern.ahead?.any r.isGroup

theorem consuming_append_looking (pattern : Pattern) (strand : List Regex) :
    pattern.consuming strand ++ pattern.looking strand = strand :=
  List.takeWhile_append_dropWhile

/-- Is there nothing left of a strand but a group without groups in it? -/
def isEnding : List Regex → Bool
  | [] => true
  | [.group _ _ ending] => ending.groups = []
  | _ => false

theorem eq_of_isEnding {parts : List Regex} (h : isEnding parts = true) :
    parts = [] ∨ ∃ index name ending, parts = [.group index name ending] ∧ ending.groups = [] := by
  unfold isEnding at h
  split at h
  · exact .inl rfl
  · exact .inr ⟨_, _, _, rfl, of_decide_eq_true h⟩
  · cases h

/-- Is a strand matched at the start of a text, and does the lookahead group stand at its end, if
the strand has it? -/
def isCutStrand (pattern : Pattern) (strand : List Regex) : Bool :=
  strand.head? = some (.look .start) &&
    pattern.ahead?.all (fun ahead => ahead ∉ Regex.indicesEach (pattern.consuming strand)) &&
    isEnding (pattern.looking strand)

/-- Is the pattern cut where the lookahead group begins, in every strand? -/
def isCut (pattern : Pattern) : Bool := pattern.regex.strands.all pattern.isCutStrand

/-- The parts have read what a match consumes, and given `bindings` to its groups. -/
structure Consumed (pattern : Pattern) (window : String) (captures : Captures)
    (parts : List Regex) (bindings : Bindings) : Prop where
  captures_over : captures.Over window
  reads : ∃ post, window.toList = captures.consumed.toList ++ post ∧
    Regex.ReadsEach parts [] captures.consumed.toList post bindings
  range?_eq : ∀ {group}, group ≠ 0 → pattern.ahead? ≠ some group →
    captures.range? group = bindings.lookup group

/-- A strand that is matched at the start of a text has nothing before it. -/
theorem eq_nil_of_readsEach {strand : List Regex} (hhead : strand.head? = some (.look .start))
    (h : Regex.ReadsEach strand pre word post bindings) : pre = [] := by
  obtain ⟨parts, rfl⟩ := List.head?_eq_some_iff.1 hhead
  obtain ⟨u, v, bu, bv, rfl, rfl, ⟨rfl, rfl, hstart⟩, -⟩ := h
  simpa [Look.holds, Cursor.between] using hstart

/-- The lookahead group comes last, and the match is cut where it begins. -/
theorem size_of_isCutStrand (input : String) {strand : List Regex}
    (hcut : pattern.isCutStrand strand = true)
    (h : Regex.ReadsEach strand [] word post bindings) (hstop : stop.offset = byteSize word) :
    ∃ u v bu bv, word = u ++ v ∧ Regex.ReadsEach (pattern.consuming strand) [] u (v ++ post) bu ∧
      Regex.ReadsEach (pattern.looking strand) u v post bv ∧
      (pattern.captures input stop bindings).size = byteSize u ∧
      ∀ {group}, pattern.ahead? ≠ some group → bindings.lookup group = bu.lookup group := by
  simp only [isCutStrand, Bool.and_eq_true, decide_eq_true_eq] at hcut
  obtain ⟨⟨-, hahead⟩, hending⟩ := hcut
  rw [← pattern.consuming_append_looking strand, Regex.readsEach_append] at h
  obtain ⟨u, v, bu, bv, rfl, rfl, hu, hv⟩ := h
  refine ⟨u, v, bu, bv, rfl, hu, hv, ?_⟩
  rw [size_captures]
  rcases eq_of_isEnding hending with hrest | ⟨index, name, ending, hrest, hgroups⟩
  · rw [hrest] at hv
    obtain ⟨rfl, rfl⟩ := hv
    have hnone : (pattern.ahead?.bind fun group => bu.lookup group) = none := by
      cases hindex : pattern.ahead? with
      | none => rfl
      | some ahead =>
        rw [hindex, Option.all_some, decide_eq_true_eq] at hahead
        exact Regex.lookup_eq_none hu hahead
    simp [hnone, hstop]
  · rw [hrest, Regex.readsEach_singleton] at hv
    obtain ⟨inner, rfl, hinner⟩ := hv
    have hnil : inner = [] := List.eq_nil_iff_forall_not_mem.2 fun entry hentry => by
      simpa [Regex.indices, hgroups] using Regex.binds_indices _ _ _ _ _ hinner entry hentry
    have hindex : pattern.ahead? = some index := by
      have := List.head?_dropWhile_not (fun r : Regex => !pattern.ahead?.any r.isGroup) strand
      rw [← looking, hrest] at this
      cases hindex : pattern.ahead? with
      | none => simp [hindex] at this
      | some ahead =>
        simp [hindex, Regex.isGroup] at this
        rw [this]
    subst hnil
    refine ⟨by simp [hindex], fun {group} hgroup => ?_⟩
    have hne : group ≠ index := by
      rintro rfl
      exact hgroup hindex
    simp [List.lookup_cons, beq_eq_false_iff_ne.2 hne]

/-- What is consumed has been read by the parts before the lookahead group, and that group has read
on from there. -/
theorem exists_looking (hcut : pattern.isCut = true) {captures : Captures}
    (h : pattern.matchStart input = some captures) :
    ∃ strand ∈ pattern.regex.strands, ∃ bindings ahead after looked,
      input.toList = captures.consumed.toList ++ ahead ++ after ∧
      Regex.ReadsEach (pattern.consuming strand) [] captures.consumed.toList (ahead ++ after)
        bindings ∧
      Regex.ReadsEach (pattern.looking strand) captures.consumed.toList ahead after looked ∧
      ∀ {group}, group ≠ 0 → pattern.ahead? ≠ some group →
        captures.range? group = bindings.lookup group := by
  obtain ⟨⟨stop, bindings⟩, hsearch, rfl⟩ := Option.map_eq_some_iff.1 h
  obtain ⟨pre, word, post, hinput, hstop, hreads⟩ := Regex.reads_of_search hsearch
  obtain ⟨strand, hmem, heach⟩ := Regex.exists_strand hreads
  have hstrand := List.all_eq_true.1 hcut strand hmem
  have hhead : strand.head? = some (.look .start) := by
    simp only [isCutStrand, Bool.and_eq_true, decide_eq_true_eq] at hstrand
    exact hstrand.1.1
  obtain rfl := eq_nil_of_readsEach hhead heach
  obtain ⟨u, v, bu, bv, rfl, hu, hv, hsize, hlookup⟩ :=
    size_of_isCutStrand input hstrand heach hstop.offset_eq
  have hconsumed : (pattern.captures input stop bindings).consumed.toList = u := by
    have hslice := slice?_of_toList (s := input) (a := []) (t := u) (b := v ++ post)
      (by simp [hinput])
    rw [Text.byteSize_nil, Nat.zero_add] at hslice
    rw [Captures.consumed, hsize, input_captures, Text.slice_of_slice? hslice, String.toList_ofList]
  rw [hconsumed]
  exact ⟨strand, hmem, bu, v, post, bv, by simp [hinput], hu, hv, fun hgroup hahead =>
    (range?_captures hreads hgroup).trans (hlookup hahead)⟩

/-- What is consumed has been read by the parts before the lookahead group. -/
theorem exists_consumed (hcut : pattern.isCut = true) {captures : Captures}
    (h : pattern.matchStart input = some captures) :
    ∃ strand ∈ pattern.regex.strands, ∃ bindings,
      pattern.Consumed input captures (pattern.consuming strand) bindings := by
  obtain ⟨strand, hmem, bindings, ahead, after, looked, hinput, hreads, -, hrange⟩ :=
    exists_looking hcut h
  exact ⟨strand, hmem, bindings, over_of_matchStart h,
    ⟨ahead ++ after, by rw [hinput, List.append_assoc], hreads⟩, hrange⟩

/-- Without lookahead group, what is consumed has been read by a whole strand. -/
theorem exists_readsEach_strand (hcut : pattern.isCut = true) (hahead : pattern.ahead? = none)
    {captures : Captures} (h : pattern.matchStart input = some captures) :
    ∃ strand ∈ pattern.regex.strands, ∃ bindings post,
      Regex.ReadsEach strand [] captures.consumed.toList post bindings ∧
      ∀ {group}, group ≠ 0 → captures.range? group = bindings.lookup group := by
  obtain ⟨strand, hmem, bindings, hconsumed⟩ := exists_consumed hcut h
  obtain ⟨post, -, hreads⟩ := hconsumed.reads
  have hstrand : pattern.consuming strand = strand := by
    rw [consuming, List.takeWhile_eq_self_iff]
    simp [hahead]
  rw [hstrand] at hreads
  exact ⟨strand, hmem, bindings, post, hreads, fun hgroup =>
    hconsumed.range?_eq hgroup (by simp [hahead])⟩

end Pattern

/-! ### Patterns that match every text -/

/-- Is it plain that the set has every character? -/
def CharSet.isFull : CharSet → Bool
  | any => true
  | union a (compl b) => a = b
  | _ => false

theorem CharSet.mem_of_isFull {s : CharSet} (h : s.isFull = true) (c : Char) : s.mem c = true := by
  unfold isFull at h
  split at h
  · rfl
  · obtain rfl := of_decide_eq_true h
    simp [mem]
  · cases h

namespace Regex

/-- Does the expression read nothing at the end of every text? -/
def readsEnd : Regex → Bool
  | look .finish => true
  | alt a b => a.readsEnd || b.readsEnd
  | _ => false

theorem reads_of_readsEnd {r : Regex} (h : r.readsEnd = true) (pre : List Char) :
    r.Reads pre [] [] [] := by
  induction r with
  | look l =>
    cases l with
    | finish => exact ⟨rfl, rfl, rfl⟩
    | _ => cases h
  | alt a b iha ihb =>
    rcases Bool.or_eq_true_iff.1 h with h | h
    · exact .inl (iha h)
    · exact .inr (ihb h)
  | _ => cases h

theorem times_set {s : CharSet} {word : List Char} (h : ∀ c ∈ word, s.mem c = true)
    (pre post : List Char) : (set s).Reads.times word.length pre word post [] := by
  induction word generalizing pre with
  | nil => exact ⟨rfl, rfl⟩
  | cons c word ih =>
    obtain ⟨hc, hword⟩ := List.forall_mem_cons.1 h
    exact ⟨[c], word, [], [], rfl, rfl, ⟨c, rfl, hc, rfl⟩, ih hword _⟩

theorem of_times_set {s : CharSet} {n : Nat} {pre word post : List Char} {bindings : Bindings}
    (h : (set s).Reads.times n pre word post bindings) :
    word.length = n ∧ (∀ c ∈ word, s.mem c = true) ∧ bindings = [] := by
  induction n generalizing pre word bindings with
  | zero =>
    obtain ⟨rfl, rfl⟩ := h
    simp
  | succ n ih =>
    obtain ⟨u, v, bu, bv, rfl, rfl, ⟨c, rfl, hc, rfl⟩, hv⟩ := h
    obtain ⟨rfl, hword, rfl⟩ := ih hv
    exact ⟨rfl, List.forall_mem_cons.2 ⟨hc, hword⟩, rfl⟩

/-- A run reads the characters of its set. -/
theorem reads_run_iff {s : CharSet} {greedy : Bool} {least : Nat} {pre word post : List Char}
    {bindings : Bindings} :
    (loop greedy least none (set s)).Reads pre word post bindings ↔
      least ≤ word.length ∧ (∀ c ∈ word, s.mem c = true) ∧ bindings = [] := by
  constructor
  · rintro ⟨n, hleast, -, h⟩
    obtain ⟨rfl, hword, rfl⟩ := of_times_set h
    exact ⟨hleast, hword, rfl⟩
  · rintro ⟨hleast, hword, rfl⟩
    exact ⟨word.length, hleast, by simp, times_set hword pre post⟩

end Regex

namespace Pattern

variable {pattern : Pattern} {input : String}

/-- Does the pattern read any characters up to something that the end of the text is as well? -/
def isCatchAll (pattern : Pattern) : Bool :=
  pattern.regex.isPlain &&
    match pattern.regex with
    | .cat (.look .start) (.cat (.loop _ 1 none (.set s)) (.group _ _ ending)) =>
      s.isFull && ending.readsEnd
    | _ => false

/-- A pattern that reads anything up to the end matches every text that is not empty. -/
theorem isSome_matchStart (hpattern : pattern.isCatchAll = true) (hinput : input ≠ "") :
    (pattern.matchStart input).isSome = true := by
  obtain ⟨hplain, hshape⟩ := Bool.and_eq_true_iff.1 hpattern
  split at hshape
  · rename_i greedy s index name ending hregex
    obtain ⟨hfull, hend⟩ := Bool.and_eq_true_iff.1 hshape
    have hlength : 1 ≤ input.toList.length := by
      rw [Nat.one_le_iff_ne_zero, Ne, List.length_eq_zero_iff, String.toList_eq_nil_iff]
      exact hinput
    have hreads : ∃ bindings, pattern.regex.Reads [] input.toList [] bindings := by
      rw [hregex]
      have hall : ∀ c ∈ input.toList, s.mem c = true := fun c _ => s.mem_of_isFull hfull c
      refine ⟨_, [], input.toList, [], _, rfl, rfl, ⟨rfl, rfl, rfl⟩, input.toList, [], [], _,
        by simp, rfl, ⟨_, hlength, by simp, Regex.times_set hall _ _⟩, [], rfl,
        Regex.reads_of_readsEnd hend _⟩
    obtain ⟨bindings, hreads⟩ := hreads
    obtain ⟨way, hway, -⟩ := Regex.exists_mem_ways hplain input.toList.length _ _ _ _
      (.ofText input.toList, []) hreads (by simpa using Cursor.at_ofText input.toList) (by simp)
    have hanchored : pattern.regex.isAnchored = true := by
      rw [hregex]
      rfl
    rw [matchStart, Regex.search_eq_head?_ways hanchored, Option.isSome_map, List.isSome_head?]
    exact List.ne_nil_of_mem hway
  · cases hshape

end Pattern

end RuledMarkup
