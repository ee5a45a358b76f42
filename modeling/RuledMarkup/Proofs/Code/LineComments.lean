import RuledMarkup.Proofs.Pattern.Shortest
import RuledMarkup.Proofs.Regex.LiteralText

/-!
# Where a line comment ends

A line comment begins with a text of its own, whatever characters that consists of, and ends before
the first line end behind that text, or with the input.  The opening text is part of the pattern,
and whatever it is, an expression is written there.  Only a limit on the size of expressions may
keep the pattern from being accepted.

## Main definitions

* `Code.lineComment` : the expression for a line comment.
* `Code.lineCommentPattern` : the pattern for it.

## Main results

* `Code.read_anchored_lineComment` : the written form is read as that expression.
* `Code.read_lineCommentSource` : the pattern can be read unless the expression is too large.
* `Code.line_comments_end_at_lines` : what these patterns match and consume.
-/

namespace RuledMarkup.Code

open Regex (literal literalChars)

variable {text rest line : List Char} {window : String} {captures : Captures}

/-! ### The expression -/

/-- Characters of one line, as few as possible. -/
def lineBody : Regex := .loop false 0 none (.set (.compl (.one '\n')))

/-- What a comment ends before: a line end, or the end of the input. -/
def lineEnd : Regex := .ahead 1 (some "ahead") (.one '\n')

/-- The expression for a comment that begins with a text. -/
def lineComment (text : List Char) : Regex :=
  .cat (.look .start) (literal text (.cat lineBody lineEnd))

/-- The written form behind the text with which a comment begins. -/
def lineChars : List Char :=
  ['.', '*', '?', '(', '?', 'P', '<', 'a', 'h', 'e', 'a', 'd', '>', '\\', 'n', '|', '$', ')']

theorem toList_lineCommentSource (opening : String) :
    (lineCommentSource opening).toList = literalChars opening.toList ++ lineChars := by
  have hline : ".*?(?P<ahead>\\n|$)".toList = lineChars := spelled rfl
  rw [lineCommentSource, String.toList_append, toList_literalSource, hline]

section Reading

open Regex.Reader

/-- What stands behind the text is read as two items. -/
theorem readItems_lineChars (bound : Nat) :
    readItems (bound + 12) { rest := lineChars ++ [')'], openGroups := 1 } =
      .ok ([⟨lineBody, 1⟩, ⟨lineEnd, 2⟩],
        { rest := [')'], nextGroup := 2, names := ["ahead"], openGroups := 1 }) := by
  rfl

/-- The items of a line comment. -/
def lineItems (text : List Char) : List Regex.Piece :=
  text.map (fun c => ⟨.set (.one c), 0⟩) ++ [⟨lineBody, 1⟩, ⟨lineEnd, 2⟩]

theorem readBranches_lineComment (bound : Nat) (text : List Char) :
    readBranches (text.length + bound + 13)
        { rest := literalChars text ++ lineChars ++ [')'], openGroups := 1 } =
      .ok ([Regex.Piece.sequence (lineItems text)],
        { rest := [')'], nextGroup := 2, names := ["ahead"], openGroups := 1 }) := by
  have hends : EndsItem (lineChars ++ [')']) := by simp [EndsItem, lineChars]
  have hitems := readItems_literal (bound + 11) { rest := [], openGroups := 1 } text hends
    (readItems_lineChars bound)
  have hbound : text.length + bound + 13 = text.length + (bound + 11) + 1 + 1 := rfl
  rw [List.append_assoc, hbound, readBranches, hitems, ok_bind]
  rfl

theorem regex_lineItems (text : List Char) :
    (Regex.Piece.sequence (lineItems text)).regex = literal text (.cat lineBody lineEnd) := by
  have hitems : (lineItems text).map (·.regex) =
      text.map (fun c => .set (.one c)) ++ [lineBody, lineEnd] := by
    simp [lineItems, Function.comp_def]
  rw [Regex.Piece.sequence, hitems, Regex.sequence_literal (by decide)]
  rfl

theorem depth_lineItems (text : List Char) : (Regex.Piece.sequence (lineItems text)).depth = 3 := by
  have hdeepest : Regex.Piece.deepest (lineItems text) = 2 := by
    rw [Regex.Piece.deepest, lineItems, List.foldl_append, List.foldl_map]
    simp
  have hlength : 2 ≤ (lineItems text).length := by simp [lineItems]
  rw [Regex.Piece.sequence, Regex.Piece.depthTogether, if_pos hlength, hdeepest]

/-- What stands between the parentheses. -/
def linePiece (text : List Char) : Regex.Piece :=
  (Regex.Piece.alternatives [Regex.Piece.sequence (lineItems text)]).around id

/-- The start condition and what stands between the parentheses. -/
def anchoredPiece (text : List Char) : Regex.Piece :=
  Regex.Piece.sequence [⟨.look .start, 0⟩, linePiece text]

/-- The start condition and the group make up the only branch. -/
theorem readBranches_anchored (bound : Nat) (text : List Char) :
    readBranches (text.length + bound + 12 + 5)
        { rest := Pattern.anchoredChars (literalChars text ++ lineChars) } =
      .ok ([anchoredPiece text], { rest := [], nextGroup := 2, names := ["ahead"] }) := by
  rw [Pattern.anchoredChars, readBranches_enclosed, readBranches_lineComment bound text]
  rfl

theorem regex_linePiece (text : List Char) :
    (linePiece text).regex = literal text (.cat lineBody lineEnd) := by
  have hbranches : (literal text (.cat lineBody lineEnd)).branches =
      [literal text (.cat lineBody lineEnd)] := by
    cases text <;> rfl
  rw [linePiece, Regex.Piece.around, Regex.Piece.alternatives, List.map_singleton, regex_lineItems]
  exact Regex.alternatives_singleton hbranches

theorem regex_anchoredPiece (text : List Char) :
    (Regex.Piece.alternatives [anchoredPiece text]).regex = lineComment text := by
  have hseq : (anchoredPiece text).regex = lineComment text := by
    have hpart : Regex.seq (.look .start) (literal text (.cat lineBody lineEnd)) =
        lineComment text := by
      cases text <;> rfl
    rw [anchoredPiece, Regex.Piece.sequence, List.map_cons, List.map_singleton, regex_linePiece,
      Regex.sequence, List.foldr_cons, List.foldr_cons, List.foldr_nil, Regex.seq_empty]
    exact hpart
  rw [Regex.Piece.alternatives, List.map_singleton, hseq]
  exact Regex.alternatives_singleton rfl

theorem depth_anchoredPiece (text : List Char) :
    (Regex.Piece.alternatives [anchoredPiece text]).depth = 5 := by
  have hdepth : (linePiece text).depth = 4 := by
    rw [linePiece, Regex.Piece.around, Regex.Piece.alternatives, Regex.Piece.depthTogether]
    simp [Regex.Piece.deepest, depth_lineItems]
  simp [Regex.Piece.alternatives, Regex.Piece.depthTogether, anchoredPiece, Regex.Piece.sequence,
    Regex.Piece.deepest, hdepth]

/-- The written form is read as the expression for a line comment. -/
theorem read_anchored_lineComment (text : List Char) :
    Regex.read (Pattern.anchoredChars (literalChars text ++ lineChars)) =
      .ok (lineComment text) := by
  have hlength : text.length ≤ (literalChars text).length := Regex.length_le_literalChars text
  obtain ⟨bound, hbound⟩ : ∃ bound,
      3 * (Pattern.anchoredChars (literalChars text ++ lineChars)).length + 3 =
        text.length + bound + 12 + 5 :=
    ⟨3 * (Pattern.anchoredChars (literalChars text ++ lineChars)).length + 3 - text.length - 17, by
      simp [Pattern.anchoredChars, lineChars]
      omega⟩
  have hdepth : ¬ Regex.allowedDepth < (Regex.Piece.alternatives [anchoredPiece text]).depth := by
    rw [depth_anchoredPiece]
    decide
  rw [Regex.read, hbound, readBranches_anchored, ok_bind]
  dsimp only
  rw [if_neg (by simp), if_neg hdepth, regex_anchoredPiece]

end Reading

theorem isAnchored_lineComment (text : List Char) : (lineComment text).isAnchored = true := rfl

/-- The items before the rest of the line: the start condition and a text. -/
def openingItems (text : List Char) : List Regex :=
  .look .start :: text.map fun c => .set (.one c)

theorem items_lineComment (text : List Char) :
    (lineComment text).items = openingItems text ++ [lineBody, lineEnd] := by
  rw [lineComment, Regex.items, Regex.items_literal]
  rfl

theorem isPlain_lineComment (text : List Char) : (lineComment text).isPlain = true := by
  rw [lineComment, Regex.isPlain, Regex.isPlain_literal]
  decide

/-- The pattern for a line comment. -/
def lineCommentPattern (opening : String) : Pattern :=
  ⟨lineCommentSource opening, lineComment opening.toList⟩

/-- The pattern for a line comment can be read unless the expression is too large. -/
theorem read_lineCommentSource (fits : Regex → Bool) (opening : String) :
    Pattern.read (lineCommentSource opening) ⟨Regex.read, fits⟩ =
      if fits (lineComment opening.toList) then .ok (lineCommentPattern opening)
      else .error .tooLarge := by
  have hchars : Spelled (lineCommentSource opening) _ := toList_lineCommentSource opening
  rw [Pattern.read, Pattern.toList_anchoredSource hchars]
  dsimp only
  rw [read_anchored_lineComment, Regex.Reader.ok_bind,
    Regex.guarded_of_isPlain (isPlain_lineComment _)]
  rfl

/-! ### Its matches -/

variable {pre word post : List Char} {bindings : Bindings}

/-- A line ends before the text. -/
def EndsLine (rest : List Char) : Prop := ∀ c ∈ rest.head?, c = '\n'

theorem mem_one_line_end_iff : (∀ c ∈ rest.head?, (CharSet.one '\n').mem c = true) ↔
    EndsLine rest := by
  simp [EndsLine, CharSet.mem]

theorem reads_lineBody_iff :
    lineBody.Reads pre word post bindings ↔ '\n' ∉ word ∧ bindings = [] := by
  have hset : (∀ c ∈ word, (CharSet.compl (.one '\n')).mem c = true) ↔ '\n' ∉ word := by
    simp only [CharSet.mem, Bool.not_eq_true', beq_eq_false_iff_ne]
    exact ⟨fun h hmem => h _ hmem rfl, fun h c hc => ne_of_mem_of_not_mem hc h⟩
  rw [lineBody, Regex.reads_run_iff, hset]
  simp

/-- A line is parted in one way from what begins with its end. -/
theorem line_inj {line' rest' : List Char} (hline : '\n' ∉ line) (hline' : '\n' ∉ line')
    (hrest : EndsLine rest) (hrest' : EndsLine rest') (h : line ++ rest = line' ++ rest') :
    line = line' ∧ rest = rest' := by
  have hothers {w : List Char} (hw : '\n' ∉ w) : ∀ c ∈ w, decide (c ≠ '\n') = true := fun c hc => by
    simpa using ne_of_mem_of_not_mem hc hw
  have hends {w : List Char} (hw : EndsLine w) : ∀ c ∈ w.head?, decide (c ≠ '\n') = false :=
    fun c hc => by simpa using hw c hc
  exact Text.append_inj_of_head? (hothers hline) (hothers hline') (hends hrest) (hends hrest') h

theorem ahead?_lineCommentPattern (opening : String) :
    (lineCommentPattern opening).ahead? = some 1 := by
  rw [Pattern.ahead?, lineCommentPattern, Regex.groupIndex?, lineComment, Regex.groups,
    Regex.groups_literal]
  rfl

/-- A comment consists of its opening text and the rest of the line. -/
theorem exists_matchStart_lineComment (opening : String)
    (hwindow : window.toList = opening.toList ++ line ++ rest) (hline : '\n' ∉ line)
    (hrest : EndsLine rest) :
    ∃ captures, (lineCommentPattern opening).matchStart window = some captures ∧
      captures.consumed.toList = opening.toList ++ line := by
  obtain ⟨v, post, rfl, hv⟩ := Regex.exists_readsEach_ahead 1 (some "ahead")
    (mem_one_line_end_iff.2 hrest) (opening.toList ++ line)
  have hbefore : Regex.ReadsEach (openingItems opening.toList) [] opening.toList
      (line ++ v ++ post) [] :=
    Regex.readsEach_start_cons.2 (Regex.readsEach_text _ _ _)
  have hdirect : (openingItems opening.toList).all Regex.isDirect = true := by
    simp [openingItems, Regex.isDirect]
  have hplain : (openingItems opening.toList ++ [lineBody, lineEnd]).all Regex.isPlain = true := by
    have hline : [lineBody, lineEnd].all Regex.isPlain = true := by decide
    rw [List.all_append, hline, Bool.and_true]
    simp [openingItems, Regex.isPlain]
  have hitems : (lineCommentPattern opening).regex.items = _ := items_lineComment opening.toList
  obtain ⟨w, v', post', bw, bv, stop, hsplit, -, hbody, hv', -, -, hmatch⟩ :=
    Pattern.exists_shortest (isAnchored_lineComment _) hitems hdirect rfl hplain
      (by simpa using hwindow) hbefore (reads_lineBody_iff.2 ⟨hline, rfl⟩) hv
  obtain ⟨hw, rfl⟩ := reads_lineBody_iff.1 hbody
  obtain ⟨hends, rfl⟩ := Regex.of_readsEach_ahead hv'
  -- No shorter piece of the line has a line end behind it.
  have hbehind : opening.toList ++ (w ++ (v' ++ post')) =
      opening.toList ++ (line ++ (v ++ post)) := by
    simpa using hsplit.symm.trans hwindow
  obtain ⟨rfl, -⟩ := line_inj hw hline (mem_one_line_end_iff.1 hends) hrest
    (List.append_cancel_left hbehind)
  refine ⟨_, hmatch, Pattern.toList_consumed hwindow ?_⟩
  rw [Pattern.size_of_lookup (ahead?_lineCommentPattern opening) rfl]

/-- What is matched begins with the opening text of the comment. -/
theorem exists_rest_of_matchStart {opening : String}
    (h : (lineCommentPattern opening).matchStart window = some captures) :
    ∃ rest, window.toList = opening.toList ++ rest := by
  obtain ⟨stop, bindings, word, post, -, hwindow, -, hreads⟩ :=
    Pattern.exists_reads_of_matchStart (isAnchored_lineComment _) h
  have hitems : (lineCommentPattern opening).regex.items = _ := items_lineComment opening.toList
  rw [← Regex.readsEach_items, hitems, openingItems, List.cons_append, Regex.readsEach_start_cons,
    Regex.readsEach_literal] at hreads
  obtain ⟨behind, rfl, -⟩ := hreads
  exact ⟨behind ++ post, by rw [hwindow, List.append_assoc]⟩

/-- A text is parted where its first line ends. -/
theorem exists_line_rest (text : List Char) :
    ∃ line rest, text = line ++ rest ∧ '\n' ∉ line ∧ EndsLine rest := by
  obtain ⟨line, rest, htext, hline, hrest⟩ := Text.exists_run (· ≠ '\n') text
  exact ⟨line, rest, htext, fun hmem => by simpa using hline _ hmem,
    fun c hc => by simpa using hrest c hc⟩

/-- A line comment may begin with any text: the pattern for it can be read, unless the expression is
over the limit on the size of expressions, whatever that is.  The pattern matches the texts that
begin with that one, and consumes it with all that follows up to the first line end behind it, or to
the end. -/
theorem line_comments_end_at_lines (fits : Regex → Bool) (opening : String) :
    (Pattern.read (lineCommentSource opening) ⟨Regex.read, fits⟩ =
        if fits (lineComment opening.toList) then .ok (lineCommentPattern opening)
        else .error .tooLarge) ∧
      ∀ window : String,
        (((lineCommentPattern opening).matchStart window).isSome = true ↔
          opening.toList <+: window.toList) ∧
        ∀ captures, (lineCommentPattern opening).matchStart window = some captures →
          ∃ line rest, window.toList = opening.toList ++ line ++ rest ∧
            captures.consumed.toList = opening.toList ++ line ∧ '\n' ∉ line ∧
            (rest = [] ∨ rest.head? = some '\n') := by
  refine ⟨read_lineCommentSource fits opening, fun window =>
    ⟨⟨fun hsome => ?_, ?_⟩, fun captures hmatch => ?_⟩⟩
  · obtain ⟨captures, hmatch⟩ := Option.isSome_iff_exists.1 hsome
    obtain ⟨rest, hwindow⟩ := exists_rest_of_matchStart hmatch
    exact ⟨rest, hwindow.symm⟩
  · rintro ⟨behind, hwindow⟩
    obtain ⟨line, rest, rfl, hline, hrest⟩ := exists_line_rest behind
    obtain ⟨captures, hmatch, -⟩ := exists_matchStart_lineComment opening
      (by rw [← hwindow, List.append_assoc]) hline hrest
    exact Option.isSome_iff_exists.2 ⟨captures, hmatch⟩
  · obtain ⟨behind, hwindow⟩ := exists_rest_of_matchStart hmatch
    obtain ⟨line, rest, rfl, hline, hrest⟩ := exists_line_rest behind
    rw [← List.append_assoc] at hwindow
    obtain ⟨found, hfound, hconsumed⟩ := exists_matchStart_lineComment opening hwindow hline hrest
    obtain rfl := Option.some.inj (hmatch.symm.trans hfound)
    refine ⟨line, rest, hwindow, hconsumed, hline, ?_⟩
    cases rest with
    | nil => exact .inl rfl
    | cons c rest => exact .inr (congrArg some (hrest c rfl))

/-- A comment may begin with signs that mean something in a pattern, and with a line end. -/
theorem line_comments_end_at_lines_behind_signs :
    ∃ pattern captures, Pattern.read (lineCommentSource "(*\n") = .ok pattern ∧
      pattern.matchStart "(*\n a\nb" = some captures ∧ captures.consumed = "(*\n a" := by
  obtain ⟨hread, hmatch⟩ := line_comments_end_at_lines Regex.fits "(*\n"
  obtain ⟨hsome, hconsumed⟩ := hmatch "(*\n a\nb"
  obtain ⟨captures, hcaptures⟩ := Option.isSome_iff_exists.1 (hsome.2 (by decide))
  obtain ⟨line, rest, hwindow, hline, hmem, hrest⟩ := hconsumed captures hcaptures
  have hends : EndsLine rest := by
    rintro c hc
    rcases hrest with rfl | hhead
    · cases hc
    · exact Option.some.inj (hc.symm.trans hhead)
  have hbehind : line ++ rest = [' ', 'a'] ++ ['\n', 'b'] := by simpa using hwindow.symm
  obtain ⟨rfl, -⟩ := line_inj hmem (by decide) hends (by simp [EndsLine]) hbehind
  exact ⟨_, captures, hread.trans (if_pos (by decide +kernel)), hcaptures,
    String.toList_inj.1 hline⟩

end RuledMarkup.Code
