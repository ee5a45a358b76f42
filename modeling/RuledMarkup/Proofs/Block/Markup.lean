import RuledMarkup.Block.Rules
import RuledMarkup.Proofs.Inline.Markup

/-!
# Documents without their markup

The text of a parsed document is its source without some markup characters, unless the parse comes
to an empty span.  Only a header and a list item can ask for one: all other rules ask for spans with
something in them.

## Main definitions

* `Block.documentRules` : the rules for quotes, block markup and inline markup.
* `Block.AtEmptyLine` : a parse is at a header without a title or at an empty list item.

## Main results

* `Block.accounts_of_mem_documentRules` : the rules leave out markup characters only.
* `Block.exists_step_of_atEmptyLine` : where an empty span comes from.
* `Block.parse_leavesOut_markup` : what the text of a parsed document lacks.
-/

namespace RuledMarkup

open Text (byteSize)

variable {R T S : Type} {window : String} {captures : Captures}

namespace Block

/-! ### The rules of block markup -/

/-- What the strands of the block patterns show. -/
structure PatternShapes : Prop where
  listItem_isMarked : listItem.isMarked 1 = true
  headerLine_hasGroup : headerLine.hasGroup 1 = true
  headerLine_isMarked : headerLine.isMarked 2 = true
  underlinedHeader_hasGroup : underlinedHeader.hasGroup 2 = true
  underlinedHeader_isMarked : underlinedHeader.isMarked 1 = true
  underlinedHeader_fills : underlinedHeader.fills 1 = true
  quote_marksEither : quote.marksEither 1 2 = true

theorem patternShapes : PatternShapes := by constructor <;> decide +kernel

theorem accounts_listItemRule (bullet : StyleProvider R T) :
    (listItemRule bullet : Rule R T S).Accounts (.markup R T True) := by
  refine Rule.Accounts.atLineStart ?_
  intro window last state captures hmatch
  obtain ⟨hover, before, inner, after, hframes, hchars, haround, -⟩ :=
    Pattern.exists_frames_of_isMarked patternShapes.listItem_isMarked hmatch
  refine ⟨hover, hframes.size_pos hover haround,
    .nonterminal (.leaf (.listItem bullet)) state ⟨byteSize before, byteSize (before ++ inner)⟩, ?_,
    Spec.accounts_markup_of_frames hframes hover hchars haround (fun _ => trivial) rfl rfl⟩
  simp [Rule.matching, Logged.quiet, Captures.span_of_range? hframes.range?_eq, Except.map]

theorem accounts_headerRule (styles : HeaderStyles T) :
    (headerRule styles : Rule R T S).Accounts (.markup R T True) := by
  refine Rule.Accounts.atLineStart ?_
  intro window last state captures hmatch
  obtain ⟨signs, hsigns⟩ :=
    Pattern.exists_range?_of_hasGroup patternShapes.headerLine_hasGroup hmatch
  obtain ⟨hover, before, inner, after, hframes, hchars, haround, -⟩ :=
    Pattern.exists_frames_of_isMarked patternShapes.headerLine_isMarked hmatch
  refine ⟨hover, hframes.size_pos hover haround,
    .nonterminal (.style [styles.style (Text.slice captures.input signs).utf8ByteSize] []) state
      ⟨byteSize before, byteSize (before ++ inner)⟩, ?_,
    Spec.accounts_markup_of_frames hframes hover hchars haround (fun _ => trivial) rfl rfl⟩
  simp [Captures.group_of_range? hsigns, Captures.span_of_range? hframes.range?_eq, Except.map]

theorem accounts_underlinedHeaderRule (stops : Prop) (styles : HeaderStyles T) :
    (underlinedHeaderRule styles : Rule R T S).Accounts (.markup R T stops) := by
  refine Rule.Accounts.atLineStart ?_
  intro window last state captures hmatch
  obtain ⟨line, hline⟩ :=
    Pattern.exists_range?_of_hasGroup patternShapes.underlinedHeader_hasGroup hmatch
  obtain ⟨hover, before, inner, after, hframes, hchars, haround, hfilled⟩ :=
    Pattern.exists_frames_of_isMarked patternShapes.underlinedHeader_isMarked hmatch
  have hinner : inner ≠ [] := hfilled patternShapes.underlinedHeader_fills
  have hlevel : underlineLevel captures =
      .ok (if Text.slice captures.input line = "=" then 1 else 2) := by
    rw [underlineLevel, Captures.group_of_range? hline]
    rfl
  refine ⟨hover, hframes.size_pos hover haround,
    .nonterminal
      (.style [styles.style (if Text.slice captures.input line = "=" then 1 else 2)] []) state
      ⟨byteSize before, byteSize (before ++ inner)⟩, ?_,
    Spec.accounts_markup_of_frames hframes hover hchars haround
      (fun hempty => (hinner hempty).elim) rfl rfl⟩
  simp [hlevel, Captures.span_of_range? hframes.range?_eq, Except.map]

/-- A match of the rule for quotes is a match of its pattern. -/
theorem matchStart_of_quoteRule [QuoteState S] {styles : List T} {last : Option String} {state : S}
    (h : (quoteRule styles : Rule R T S).tryMatch window last state = some captures) :
    quote.matchStart window = some captures := by
  rw [quoteRule, Rule.atLineStart] at h
  dsimp only at h
  unfold matchQuote at h
  split_ifs at h
  split at h
  · cases h
  · split_ifs at h
    cases h
    assumption

theorem accounts_quoteRule [QuoteState S] (stops : Prop) (styles : List T) :
    (quoteRule styles : Rule R T S).Accounts (.markup R T stops) := by
  intro window last state captures hmatch
  have hquote := matchStart_of_quoteRule hmatch
  obtain ⟨hover, group, before, inner, after, hgroup, hframes, hchars, haround, hinner⟩ :=
    Pattern.exists_frames_of_marksEither patternShapes.quote_marksEither hquote
  refine ⟨hover, hframes.size_pos hover haround,
    .nonterminal (.style styles []) (QuoteState.setInQuote true state)
      ⟨byteSize before, byteSize (before ++ inner)⟩, ?_,
    Spec.accounts_markup_of_frames hframes hover hchars haround
      (fun hempty => (hinner hempty).elim) rfl rfl⟩
  rcases hgroup with rfl | ⟨rfl, hnone⟩
  · simp [quoteRule, Rule.atLineStart, Logged.quiet, hframes.range?_eq, Except.map]
  · simp [quoteRule, Rule.atLineStart, Logged.quiet, hnone,
      Captures.span_of_range? hframes.range?_eq, Except.map]

/-! ### Empty titles and items -/

/-- What the rule for headers makes of a match. -/
theorem exists_of_build_headerRule {styles : HeaderStyles T} {state : S} {spec : Spec R T S}
    (h : ((headerRule styles).build captures state).value = .ok spec) :
    ∃ signs title, captures.group 1 = .ok signs ∧ captures.span 2 = .ok title ∧
      spec = .nonterminal (.style [styles.style signs.utf8ByteSize] []) state title := by
  rw [headerRule, Rule.atLineStart] at h
  dsimp only at h
  cases hsigns : captures.group 1 with
  | error error =>
    rw [hsigns] at h
    cases h
  | ok signs =>
    rw [hsigns] at h
    obtain ⟨title, htitle, rfl⟩ := exists_of_map_eq_ok h
    exact ⟨signs, title, rfl, htitle, rfl⟩

/-- What the rule for underlined headers makes of a match. -/
theorem exists_of_build_underlinedHeaderRule {styles : HeaderStyles T} {state : S}
    {spec : Spec R T S}
    (h : ((underlinedHeaderRule styles).build captures state).value = .ok spec) :
    ∃ level title, underlineLevel captures = .ok level ∧ captures.span 1 = .ok title ∧
      spec = .nonterminal (.style [styles.style level] []) state title := by
  rw [underlinedHeaderRule, Rule.atLineStart] at h
  dsimp only at h
  cases hlevel : underlineLevel captures with
  | error error =>
    rw [hlevel] at h
    cases h
  | ok level =>
    rw [hlevel] at h
    obtain ⟨title, htitle, rfl⟩ := exists_of_map_eq_ok h
    exact ⟨level, title, rfl, htitle, rfl⟩

/-- A header that asks for an empty span has an empty title. -/
theorem text?_of_headerRule {styles : HeaderStyles T} {state : S} {spec : Spec R T S}
    {span : Text.ByteRange} (hover : captures.Over window)
    (hbuilt : ((headerRule styles).build captures state).value = .ok spec)
    (hspan : spec.span = some span) (hslice : Text.slice? window span = some "") :
    captures.text? 2 = some "" := by
  obtain ⟨signs, title, -, htitle, rfl⟩ := exists_of_build_headerRule hbuilt
  obtain rfl := Option.some.inj hspan
  rw [Captures.text?, Captures.range?_of_span htitle, Option.map_some, hover.input_eq,
    Text.slice_of_slice? hslice]

/-- A list item that asks for an empty span is empty. -/
theorem text?_of_listItemRule {bullet : StyleProvider R T} {state : S} {spec : Spec R T S}
    {span : Text.ByteRange} (hover : captures.Over window)
    (hbuilt : ((listItemRule bullet).build captures state).value = .ok spec)
    (hspan : spec.span = some span) (hslice : Text.slice? window span = some "") :
    captures.text? 1 = some "" := by
  obtain ⟨item, hitem, rfl⟩ := exists_of_map_eq_ok hbuilt
  obtain rfl := Option.some.inj hspan
  rw [Captures.text?, Captures.range?_of_span hitem, Option.map_some, hover.input_eq,
    Text.slice_of_slice? hslice]

/-! ### Documents -/

/-- The rules of a document: quotes, block markup and inline markup. -/
def documentRules [QuoteState S] [HasTextStyles T] (quoteStyles : List T) (styles : HeaderStyles T)
    (bullet : StyleProvider R T) : List (Rule R T S) :=
  quoteRule quoteStyles :: (rules styles bullet ++ Inline.rules)

/-- If no rule asks for an empty span, then a parse leaves out markup characters and nothing
else. -/
theorem leavesOut_of_accounts {rules : List (Rule R T S)}
    (hrules : ∀ rule ∈ rules, rule.Accounts (.markup R T False)) (htext : Inline.textRule ∈ rules)
    (source : String) (state : S) :
    ¬ StopsEarly rules source state ∧ ∃ forest, (parse rules source state).value = .ok forest ∧
      LeavesOut source.toList (Forest.textContent forest).toList := by
  refine ⟨not_stopsEarly hrules (fun hpart => hpart.1) source state, ?_⟩
  obtain ⟨forest, hvalue, hwhole | ⟨hpart, -⟩⟩ :=
    parse_accounts hrules (Inline.catches_of_mem htext) source state
  · exact ⟨forest, hvalue, hwhole⟩
  · exact hpart.1.elim

variable [QuoteState S] [HasTextStyles T] (quoteStyles : List T) (styles : HeaderStyles T)
  (bullet : StyleProvider R T)

/-- A header and a list item apart, the rules of a document ask for spans with something in them. -/
theorem accounts_or_eq {rule : Rule R T S} (h : rule ∈ documentRules quoteStyles styles bullet)
    (stops : Prop) :
    rule.Accounts (.markup R T stops) ∨ rule = headerRule styles ∨ rule = listItemRule bullet := by
  simp only [documentRules, rules, headerRules, List.mem_append, List.mem_cons, List.not_mem_nil,
    or_false] at h
  rcases h with rfl | ((rfl | rfl) | rfl) | h
  · exact .inl (accounts_quoteRule stops quoteStyles)
  · exact .inr (.inl rfl)
  · exact .inl (accounts_underlinedHeaderRule stops styles)
  · exact .inr (.inr rfl)
  · exact .inl (Inline.accounts_of_mem_rules stops rule h)

theorem accounts_of_mem_documentRules :
    ∀ rule ∈ (documentRules quoteStyles styles bullet : List (Rule R T S)),
      rule.Accounts (.markup R T True) := by
  intro rule hrule
  rcases accounts_or_eq quoteStyles styles bullet hrule True with h | rfl | rfl
  · exact h
  · exact accounts_headerRule styles
  · exact accounts_listItemRule bullet

/-- The machine is at a header without a title or at an empty list item. -/
def AtEmptyLine (source : String) (machine : Machine R T S) : Prop :=
  ∃ window state captures,
    machine.At (documentRules quoteStyles styles bullet) source window state (headerRule styles)
        captures ∧ captures.text? 2 = some "" ∨
      machine.At (documentRules quoteStyles styles bullet) source window state
        (listItemRule bullet) captures ∧ captures.text? 1 = some ""

/-- A parse of a document comes to an empty span only after a header without a title or an empty
list item. -/
theorem exists_step_of_atEmptyLine {source : String} {state : S} {n : Nat}
    {machine : Machine R T S}
    (hreach : Reaches (documentRules quoteStyles styles bullet) source n (.start source state)
      machine) (hempty : machine.AtEmptySpan) :
    ∃ m before,
      Reaches (documentRules quoteStyles styles bullet) source m (.start source state) before ∧
      step (documentRules quoteStyles styles bullet) source before = .running machine ∧
      AtEmptyLine quoteStyles styles bullet source before := by
  have hrules := accounts_of_mem_documentRules (S := S) quoteStyles styles bullet
  obtain ⟨m, before, hbefore, hstep, window, state', rule, captures, spec, span, hat, hbuilt, hspan,
    hslice⟩ := exists_step_of_atEmptySpan hrules hreach hempty
  obtain ⟨hmem, hmatch⟩ := mem_of_matchFirst hat.matchFirst_eq
  obtain ⟨hover, -, -⟩ := hrules rule hmem hmatch
  refine ⟨m, before, hbefore, hstep, window, state', captures, ?_⟩
  rcases accounts_or_eq quoteStyles styles bullet hmem False with haccounts | rfl | rfl
  · -- The other rules account for their matches even if no parse may be stopped.
    obtain ⟨-, -, spec', hbuilt', hspec⟩ := haccounts hmatch
    cases hbuilt.symm.trans hbuilt'
    simp only [Spec.Accounts, hspan, hslice] at hspec
    obtain ⟨inner, hinner, -, -, -, hpart⟩ := hspec
    exact (hpart (Option.some.inj hinner).symm).1.elim
  · exact .inl ⟨hat, text?_of_headerRule hover hbuilt hspan hslice⟩
  · exact .inr ⟨hat, text?_of_listItemRule hover hbuilt hspan hslice⟩

/-- A document can always be parsed, and its text is a part of the source.  Unless the parse comes
to an empty span, that text lacks nothing but markup characters.  Only a header without a title and
an empty list item lead to an empty span; without the rules for these, the text always lacks nothing
but markup characters. -/
theorem parse_leavesOut_markup (source : String) (state : S) :
    (∃ forest, (parse (documentRules quoteStyles styles bullet) source state).value = .ok forest ∧
        (Forest.textContent forest).toList.Sublist source.toList ∧
        (¬ StopsEarly (documentRules quoteStyles styles bullet) source state →
          unmarked source.toList = unmarked (Forest.textContent forest).toList)) ∧
      (∀ n machine,
        Reaches (documentRules quoteStyles styles bullet) source n (.start source state) machine →
        machine.AtEmptySpan →
        ∃ m before,
          Reaches (documentRules quoteStyles styles bullet) source m (.start source state) before ∧
          step (documentRules quoteStyles styles bullet) source before = .running machine ∧
          AtEmptyLine quoteStyles styles bullet source before) ∧
      ∀ rules ∈ ([Inline.rules, quoteRule quoteStyles :: Inline.rules] : List (List (Rule R T S))),
        ¬ StopsEarly rules source state ∧ ∃ forest, (parse rules source state).value = .ok forest ∧
          (Forest.textContent forest).toList.Sublist source.toList ∧
          unmarked source.toList = unmarked (Forest.textContent forest).toList := by
  refine ⟨?_, fun n machine hreach hempty =>
    exists_step_of_atEmptyLine quoteStyles styles bullet hreach hempty, ?_⟩
  · have htext : Inline.textRule ∈
        (documentRules quoteStyles styles bullet : List (Rule R T S)) := by
      simp [documentRules, Inline.rules]
    obtain ⟨forest, hvalue, hforest⟩ :=
      parse_accounts (accounts_of_mem_documentRules quoteStyles styles bullet)
        (Inline.catches_of_mem htext) source state
    refine ⟨forest, hvalue, ?_⟩
    rcases hforest with hwhole | ⟨hpart, hstops⟩
    · exact ⟨hwhole.sublist, fun _ => hwhole.unmarked_eq⟩
    · exact ⟨hpart.2, fun hnot => (hnot hstops).elim⟩
  · intro rules hrules
    have hinline := Inline.accounts_of_mem_rules (R := R) (T := T) (S := S) False
    have haccounts : (∀ rule ∈ rules, rule.Accounts (.markup R T False)) ∧
        Inline.textRule ∈ rules := by
      simp only [List.mem_cons, List.not_mem_nil, or_false] at hrules
      rcases hrules with rfl | rfl
      · exact ⟨hinline, by simp [Inline.rules]⟩
      · exact ⟨List.forall_mem_cons.2 ⟨accounts_quoteRule False quoteStyles, hinline⟩,
          by simp [Inline.rules]⟩
    obtain ⟨hnever, forest, hvalue, hleft⟩ :=
      leavesOut_of_accounts haccounts.1 haccounts.2 source state
    exact ⟨hnever, forest, hvalue, hleft.sublist, hleft.unmarked_eq⟩

end Block

end RuledMarkup
