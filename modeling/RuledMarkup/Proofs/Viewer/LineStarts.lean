import RuledMarkup.Proofs.Parse.LineStarts
import RuledMarkup.Proofs.Pattern.LineEnds
import RuledMarkup.Proofs.Viewer.Success

/-!
# Where block markup is found in a document

Headers, list items and quotes are found at the starts of lines, which are recognized by the text
consumed last.  That text is the end of the line before, with one exception: where text in bold,
say, ends with a line end, a line seems to start behind the closing marks.

## Main definitions

* `linePatterns` : the patterns that consume no line end last.
* `Viewer.blockRules`, `Inline.styleRules` : the rules for block markup and for styled text.

## Main results

* `Rule.mindsLines_of_styled`, `Rule.mindsLines_of_keepsOut` : rules that mind lines.
* `Viewer.blockRules_match_at_lines` : where block markup is found.
* `Viewer.not_blockRules_match_behind_line_ends` : it is not only found right behind line ends.
-/

namespace RuledMarkup

open Text (byteSize)

variable {R T S : Type} {quotes styled : Prop}

/-! ### Rules that mind lines -/

/-- The patterns that consume no line end last: those for lines, and those for styled text. -/
def linePatterns : List Pattern :=
  [Block.headerLine, Block.underlinedHeader, Block.listItem, Inline.bold, Inline.underline,
    Inline.italics, Inline.strikethrough]

/-- What the strands of the patterns show about line ends. -/
structure LineShapes : Prop where
  quote_endsWithEither : Block.quote.endsWithEither 1 2 = true
  quote_hasChar : Block.quote.hasChar '>' = true
  headerLine_keepsOut : Block.headerLine.keepsOut 2 '\n' = true
  underlinedHeader_keepsOut : Block.underlinedHeader.keepsOut 1 '\n' = true
  listItem_keepsOut : Block.listItem.keepsOut 1 '\n' = true
  endsApart : ∀ pattern ∈ linePatterns, pattern.endsApart '\n' = true

theorem lineShapes : LineShapes := by constructor <;> decide +kernel

theorem endsWith_eq_false {pattern : Pattern} (hpattern : pattern ∈ linePatterns)
    {window : String} {captures : Captures} (h : pattern.matchStart window = some captures) :
    captures.consumed.endsWith '\n' = false := by
  have hne := Pattern.getLast?_ne_of_endsApart (lineShapes.endsApart pattern hpattern) h
  rwa [String.endsWith_char_eq_getLast?, beq_eq_false_iff_ne]

namespace Rule

theorem MindsLines.atLineStart {rule : Rule R T S} (h : rule.MindsLines quotes styled) :
    rule.atLineStart.MindsLines quotes styled := by
  intro window last state captures spec span hmatch
  rw [Rule.atLineStart] at hmatch
  dsimp only at hmatch
  split_ifs at hmatch
  exact h hmatch

/-- A rule that asks for nothing. -/
theorem mindsLines_of_span_eq_none {rule : Rule R T S}
    (h : ∀ {captures state spec}, (rule.build captures state).value = .ok spec →
      spec.span = none) : rule.MindsLines quotes styled := by
  intro window last state captures spec span _ hbuilt hspan
  cases hspan.symm.trans (h hbuilt)

/-- A rule for styled text. -/
theorem mindsLines_of_styled {rule : Rule R T S} (pattern : Pattern)
    (hpattern : pattern ∈ linePatterns)
    (hmatch : ∀ {window last state captures}, rule.tryMatch window last state = some captures →
      pattern.matchStart window = some captures) (hstyled : styled) :
    rule.MindsLines quotes styled :=
  fun _ _ _ _ _ _ h _ _ => .inr ⟨endsWith_eq_false hpattern (hmatch h), .inl hstyled⟩

/-- A rule that asks for a group in a line. -/
theorem mindsLines_of_keepsOut {rule : Rule R T S} {pattern : Pattern} {group : Nat}
    (hpattern : pattern ∈ linePatterns)
    (hgroup : pattern.keepsOut group '\n' = true)
    (hmatch : ∀ {window last state captures}, rule.tryMatch window last state = some captures →
      pattern.matchStart window = some captures)
    (hbuild : ∀ {captures state spec}, (rule.build captures state).value = .ok spec →
      ∃ title, captures.span group = .ok title ∧ spec.span = some title) :
    rule.MindsLines quotes styled := by
  intro window last state captures spec span h hbuilt hspan
  have hstart := hmatch h
  obtain ⟨title, htitle, hspan'⟩ := hbuild hbuilt
  obtain rfl := Option.some.inj (hspan'.symm.trans hspan)
  obtain ⟨before, inner, after, hframes, hinner⟩ := Pattern.exists_frames_of_keepsOut hgroup hstart
  obtain rfl := Option.some.inj ((Captures.range?_of_span htitle).symm.trans hframes.range?_eq)
  have hslice := hframes.slice?_eq (Pattern.over_of_matchStart hstart)
  exact .inr ⟨endsWith_eq_false hpattern hstart, .inr ⟨_, hslice, by simpa using hinner⟩⟩

end Rule

namespace Block

/-- A quote goes on to the end of what is consumed. -/
theorem mindsLines_quoteRule [QuoteState S] (styles : List T) (hquotes : quotes) :
    (quoteRule styles : Rule R T S).MindsLines quotes styled := by
  intro window last state captures spec span hmatch hbuilt hspan
  have hquote := matchStart_of_quoteRule hmatch
  obtain ⟨group, before, inner, hgroup, hframes⟩ :=
    Pattern.exists_frames_of_endsWithEither lineShapes.quote_endsWithEither hquote
  have hsize : byteSize (before ++ inner) = captures.size := by
    rw [← (Pattern.over_of_matchStart hquote).utf8ByteSize_consumed, ← Text.byteSize_toList,
      hframes.toList_consumed, List.append_nil]
  have hwanted : spec.span = some ⟨byteSize before, byteSize (before ++ inner)⟩ := by
    obtain ⟨range, hrange, rfl⟩ := exists_of_map_eq_ok hbuilt
    rcases hgroup with rfl | ⟨rfl, hnone⟩
    · rw [hframes.range?_eq] at hrange
      exact congrArg some (Except.ok.inj hrange).symm
    · rw [hnone] at hrange
      exact (Captures.range?_of_span hrange).symm.trans hframes.range?_eq
  obtain rfl := Option.some.inj (hspan.symm.trans hwanted)
  exact .inl ⟨hquotes, hsize⟩

theorem mindsLines_of_mem_rules (styles : HeaderStyles T) (bullet : StyleProvider R T) :
    ∀ rule ∈ (rules styles bullet : List (Rule R T S)), rule.MindsLines quotes styled := by
  intro rule hrule
  simp only [rules, headerRules, List.mem_append, List.mem_cons, List.not_mem_nil, or_false]
    at hrule
  rcases hrule with (rfl | rfl) | rfl
  · refine .atLineStart <| Rule.mindsLines_of_keepsOut (by simp [linePatterns])
      lineShapes.headerLine_keepsOut id fun hbuilt => ?_
    obtain ⟨signs, title, -, htitle, rfl⟩ := exists_of_build_headerRule hbuilt
    exact ⟨title, htitle, rfl⟩
  · refine .atLineStart <| Rule.mindsLines_of_keepsOut (by simp [linePatterns])
      lineShapes.underlinedHeader_keepsOut id fun hbuilt => ?_
    obtain ⟨level, title, -, htitle, rfl⟩ := exists_of_build_underlinedHeaderRule hbuilt
    exact ⟨title, htitle, rfl⟩
  · refine .atLineStart <| Rule.mindsLines_of_keepsOut (by simp [linePatterns])
      lineShapes.listItem_keepsOut id fun hbuilt => ?_
    obtain ⟨item, hitem, rfl⟩ := exists_of_map_eq_ok hbuilt
    exact ⟨item, hitem, rfl⟩

end Block

namespace Inline

theorem mindsLines_escapeRule : (escapeRule : Rule R T S).MindsLines quotes styled := by
  refine Rule.mindsLines_of_span_eq_none fun hbuilt => ?_
  obtain ⟨character, -, rfl⟩ := exists_of_map_eq_ok hbuilt
  rfl

variable [HasTextStyles T]

/-- The rules for styled text. -/
def styleRules : List (Rule R T S) := [boldRule, underlineRule, italicsRule, strikethroughRule]

theorem mindsLines_of_mem_rules :
    ∀ rule ∈ (rules : List (Rule R T S)), rule.MindsLines quotes (rule ∈ styleRules) := by
  intro rule hrule
  simp only [rules, markupRules, List.mem_append, List.mem_cons, List.not_mem_nil, or_false]
    at hrule
  rcases hrule with (rfl | rfl | rfl | rfl | rfl | rfl) | rfl
  · exact mindsLines_escapeRule
  · refine Rule.mindsLines_of_span_eq_none fun hbuilt => ?_
    rw [← Except.ok.inj hbuilt, Spec.terminal]
  · exact Rule.mindsLines_of_styled bold (by simp [linePatterns]) id (by simp [styleRules])
  · exact Rule.mindsLines_of_styled underline (by simp [linePatterns]) id (by simp [styleRules])
  · exact Rule.mindsLines_of_styled italics (by simp [linePatterns]) id (by simp [styleRules])
  · exact Rule.mindsLines_of_styled strikethrough (by simp [linePatterns]) id (by simp [styleRules])
  · refine Rule.mindsLines_of_span_eq_none fun hbuilt => ?_
    rw [← Except.ok.inj hbuilt, Spec.terminal]

end Inline

namespace Code

theorem mindsLines_blockRule (textStyles : StyleProvider R T) (languages : Languages R T S)
    (wrapper : Wrapper R T S) :
    (blockRule textStyles languages wrapper).MindsLines quotes styled := by
  refine Rule.mindsLines_of_span_eq_none fun hbuilt => ?_
  obtain ⟨code, -, rfl⟩ := exists_of_map_eq_ok hbuilt
  rfl

theorem mindsLines_inlineRule (textStyles background : StyleProvider R T) :
    (inlineRule textStyles background : Rule R T S).MindsLines quotes styled := by
  refine Rule.mindsLines_of_span_eq_none fun hbuilt => ?_
  obtain ⟨body, -, rfl⟩ := exists_of_map_eq_ok hbuilt
  rfl

end Code

/-! ### Documents -/

namespace Viewer

open Terminal

/-- The rules for block markup: quotes, headers and list items. -/
def blockRules (theme : Theme) : List (Rule Theme Attribute State) :=
  Block.quoteRule [quoteStyle theme] :: Block.rules (headerStyles theme) bullet

theorem headerRule_mem_blockRules {theme : Theme} :
    Block.headerRule (headerStyles theme) ∈ blockRules theme := by
  simp [blockRules, Block.rules, Block.headerRules]

theorem mindsLines_of_mem_rules (theme : Theme) : ∀ rule ∈ rules theme,
    rule.MindsLines (rule = Block.quoteRule [quoteStyle theme]) (rule ∈ Inline.styleRules) := by
  intro rule hrule
  rcases List.mem_append.1 hrule with hrule | hrule
  · rcases List.mem_append.1 hrule with hrule | hrule
    · simp only [List.mem_cons, List.not_mem_nil, or_false] at hrule
      rcases hrule with rfl | rfl | rfl | rfl
      · exact Inline.mindsLines_escapeRule
      · exact Code.mindsLines_blockRule _ _ _
      · exact Code.mindsLines_inlineRule _ _
      · exact Block.mindsLines_quoteRule _ rfl
    · exact Block.mindsLines_of_mem_rules _ _ rule hrule
  · exact Inline.mindsLines_of_mem_rules rule hrule

/-- The rules for block markup only match at the starts of lines, as far as they can see them. -/
theorem startsLine_of_mem_blockRules {theme : Theme} {rule : Rule Theme Attribute State}
    (hrule : rule ∈ blockRules theme) (window : String) (last : Option String) (state : State)
    (h : (rule.tryMatch window last state).isSome = true) : startsLine last = true := by
  simp only [blockRules, Block.rules, Block.headerRules, List.mem_cons, List.mem_append,
    List.not_mem_nil, or_false] at hrule
  rcases hrule with rfl | (rfl | rfl) | rfl <;> exact Rule.startsLine_of_atLineStart h

/-- Block markup is found at the start of a document, at the start of what a quote contains, and
behind the end of a line, where nothing but the closing marks of styled text may stand in
between. -/
theorem blockRules_match_at_lines (theme : Theme) (source : String) (state : State)
    {found : Match Theme Attribute State} {rule : Rule Theme Attribute State}
    (hmade : found.MadeBy (rules theme) source state rule) (hrule : rule ∈ blockRules theme) :
    LineStart (rules theme) source state (· = Block.quoteRule [quoteStyle theme])
      (· ∈ Inline.styleRules) found.offset :=
  lineStart_of_madeBy (keepsToWindow_of_accounts (accounts_of_mem_rules theme))
    (mindsLines_of_mem_rules theme) hmade (startsLine_of_mem_blockRules hrule)

/-- After bold text that ends with a line end, a header is found behind the closing marks. -/
theorem exists_headerRule_madeBy_behind_bold :
    ∃ found : Match Theme Attribute State,
      found.MadeBy (rules {}) "**a\n**# b" {} (Block.headerRule (headerStyles {})) ∧
        found.offset = 6 := by
  have hrules : rules {} = [Inline.escapeRule,
      Code.blockRule tokenStyles.default (Code.languages tokenStyles) (wrapBlock {}),
      Code.inlineRule tokenStyles.default inlineBackground, Block.quoteRule [quoteStyle {}]] ++
        Block.headerRule (headerStyles {}) :: (Block.underlinedHeaderRule (headerStyles {}) ::
          [Block.listItemRule bullet] ++ Inline.rules) := by
    simp only [rules, Block.rules, Block.headerRules, List.cons_append, List.nil_append]
  have hafter : ((Machine.start "**a\n**# b" {} : Machine Theme Attribute State).after? (rules {})
      "**a\n**# b" 3).any (fun machine =>
        machine.pending.map (fun item => (item.state, item.range)) = [({}, ⟨6, 9⟩)] &&
          machine.last = some "\n" &&
          (machine.after? (rules {}) "**a\n**# b" 1).isSome) = true := by
    decide +kernel
  have hwindow : Text.slice? "**a\n**# b" ⟨6, 9⟩ = some "# b" := by decide +kernel
  obtain ⟨found, hmade, hrange⟩ := exists_madeBy_of_after? hrules hafter hwindow
    (by decide +kernel) (by decide +kernel)
  exact ⟨found, hmade, congrArg Text.ByteRange.start hrange⟩

theorem blockRules_match_at_lines_behind_bold :
    ∃ (found : Match Theme Attribute State) (rule : Rule Theme Attribute State),
      found.MadeBy (rules {}) "**a\n**# b" {} rule ∧ rule ∈ blockRules {} ∧ found.offset = 6 ∧
        LineStart (rules {}) "**a\n**# b" {} (· = Block.quoteRule [quoteStyle {}])
          (· ∈ Inline.styleRules) found.offset := by
  obtain ⟨found, hmade, hoffset⟩ := exists_headerRule_madeBy_behind_bold
  exact ⟨found, _, hmade, headerRule_mem_blockRules, hoffset,
    blockRules_match_at_lines {} _ {} hmade headerRule_mem_blockRules⟩

/-- There is a `>` in a source in which a quote is found. -/
theorem mem_of_quoteRule_madeBy {theme : Theme} {source : String} {state : State}
    {found : Match Theme Attribute State}
    (h : found.MadeBy (rules theme) source state (Block.quoteRule [quoteStyle theme])) :
    '>' ∈ source.toList := by
  obtain ⟨n, before, after, -, hmakes, hfirst⟩ := h
  have hquote := Block.matchStart_of_quoteRule (mem_of_matchFirst hfirst).2
  have hslice := hmakes.slice?_range (Pattern.over_of_matchStart hquote)
  obtain ⟨a, b, hsource, -⟩ := Text.slice?_eq_some_iff.1 hslice
  have hmem := Pattern.mem_of_hasChar lineShapes.quote_hasChar hquote
  rw [hsource]
  simp [Match.consumed, hmem]

/-- Block markup is not only found at the starts of documents, at the starts of what quotes contain
and right behind line ends. -/
theorem not_blockRules_match_behind_line_ends :
    ¬ ∀ (theme : Theme) (source : String) (found : Match Theme Attribute State)
        (rule : Rule Theme Attribute State),
      found.MadeBy (rules theme) source {} rule → rule ∈ blockRules theme →
        found.offset = 0 ∨ (∃ n, Text.IsLineEnd source n ∧ n + 1 = found.offset) ∨
          ∃ (quoted : Match Theme Attribute State) (span : Text.ByteRange),
            quoted.MadeBy (rules theme) source {} (Block.quoteRule [quoteStyle theme]) ∧
              quoted.wanted? = some span ∧ span.start = found.offset := by
  intro h
  obtain ⟨found, hmade, hoffset⟩ := exists_headerRule_madeBy_behind_bold
  rcases h _ _ found _ hmade headerRule_mem_blockRules with
    hfirst | ⟨n, hn, hnext⟩ | ⟨quoted, span, hquoted, -, -⟩
  · omega
  · -- The byte before the header is an asterisk.
    obtain rfl : n = 5 := by omega
    revert hn
    unfold Text.IsLineEnd
    decide +kernel
  · exact absurd (mem_of_quoteRule_madeBy hquoted) (by decide)

end Viewer

end RuledMarkup
