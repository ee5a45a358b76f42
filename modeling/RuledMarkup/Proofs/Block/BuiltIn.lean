import RuledMarkup.Proofs.Block.ClassedTitles
import RuledMarkup.Proofs.Code.Fences
import RuledMarkup.Proofs.Code.Verbatim
import RuledMarkup.Proofs.Parse.Safety

/-!
# The built-in rules are safe

Every rule of inline markup, of headers, lists, quotes and code, and of the languages consumes
something, finds the groups that it asks for, and has a span parsed that is shorter than what it
consumes.  Titles with classes and code blocks are parsed with rules of their own; if those are
built-in rules as well, then that is where they can fail: no rule may match.

## Main definitions

* `Block.BuiltIn` : the built-in rules.

## Main results

* `Block.BuiltIn.isSafe` : the built-in rules are safe.
* `Block.builtIn_rules_make_progress` : what that means for a match, and for a parse.
-/

namespace RuledMarkup

open Text (byteSize)

variable {R T S : Type} {window : String} {captures : Captures}

/-! ### Inline markup -/

/-- A rule that never fails is safe if it asks for a group that stands between markup characters. -/
theorem Rule.Accounts.isSafe_of_isMarked {account : Account R T} {rule : Rule R T S}
    {pattern : Pattern} {group : Nat} (h : rule.Accounts account)
    (hpattern : pattern.isMarked group = true)
    (hrule : ∀ ⦃window last state captures⦄,
      rule.tryMatch window last state = some captures → pattern.matchStart window = some captures)
    (hspans : ∀ ⦃captures state spec⦄, (rule.build captures state).value = .ok spec →
      ∀ span ∈ spec.span, captures.span group = .ok span) : rule.IsSafe := by
  refine h.isSafe fun window last state captures spec hmatch hbuilt span hspan => ?_
  obtain ⟨-, before, inner, after, hframes, -, haround, -⟩ :=
    Pattern.exists_frames_of_isMarked hpattern (hrule hmatch)
  exact ⟨group, before, inner, after, hframes, haround,
    Captures.range?_of_span (hspans hbuilt span hspan)⟩

/-- A rule that styles the first group of its pattern. -/
theorem Rule.isSafe_style {pattern : Pattern} (hpattern : pattern.isMarked 1 = true)
    {account : Account R T} {styles : List T}
    (h : (style pattern styles : Rule R T S).Accounts account) :
    (style pattern styles : Rule R T S).IsSafe := by
  refine h.isSafe_of_isMarked hpattern (fun _ _ _ _ hmatch => hmatch) ?_
  intro captures state spec hbuilt span hspan
  obtain ⟨range, hrange, rfl⟩ := exists_of_map_eq_ok hbuilt
  obtain rfl := Option.some.inj hspan
  exact hrange

namespace Inline

variable [HasTextStyles T]

theorem isSafe_italicsRule : (italicsRule : Rule R T S).IsSafe := by
  refine (accounts_italicsRule True).isSafe
    fun window last state captures spec hmatch hbuilt span hspan => ?_
  obtain ⟨-, group, before, inner, after, hgroup, hframes, -, haround, hinner⟩ :=
    Pattern.exists_frames_of_marksEither patternShapes.italics_marksEither hmatch
  have hbuild := build_italicsRule (R := R) (T := T) state hgroup hframes hinner
  cases hbuilt.symm.trans hbuild
  obtain rfl := Option.some.inj hspan
  exact ⟨group, before, inner, after, hframes, haround, hframes.range?_eq⟩

theorem isSafe_of_mem_rules : ∀ rule ∈ (rules : List (Rule R T S)), rule.IsSafe := by
  intro rule hrule
  have haccounts := accounts_of_mem_rules True rule hrule
  simp only [rules, markupRules, List.mem_append, List.mem_cons, List.not_mem_nil,
    or_false] at hrule
  rcases hrule with (rfl | rfl | rfl | rfl | rfl | rfl) | rfl
  · refine haccounts.isSafe_of_isTerminal fun captures state spec hbuilt => ?_
    obtain ⟨character, -, rfl⟩ := exists_of_map_eq_ok hbuilt
    rfl
  · refine haccounts.isSafe_of_isTerminal fun captures state spec hbuilt => ?_
    rw [← Except.ok.inj hbuilt, Spec.terminal]
  · exact Rule.isSafe_style (patternShapes.styled_isMarked bold (by simp)) haccounts
  · exact Rule.isSafe_style (patternShapes.styled_isMarked underline (by simp)) haccounts
  · exact isSafe_italicsRule
  · exact Rule.isSafe_style (patternShapes.styled_isMarked strikethrough (by simp)) haccounts
  · refine haccounts.isSafe_of_isTerminal fun captures state spec hbuilt => ?_
    rw [← Except.ok.inj hbuilt, Spec.terminal]

end Inline

/-! ### Code -/

namespace Code

theorem isTerminal_matchGroup (pattern : Pattern) (group : Nat)
    (styles : Option (StyleProvider R T)) :
    (Rule.matchGroup pattern group styles : Rule R T S).IsTerminal := by
  intro captures state spec hbuilt
  rw [← Except.ok.inj hbuilt, Spec.terminal]

/-- The rules that languages share ask for no spans. -/
theorem isTerminal_of_mem_tokenRules {styles : TokenStyles R T} {own : List (Rule R T S)}
    {lexicon : Lexicon} (hown : ∀ rule ∈ own, rule.IsTerminal) :
    ∀ rule ∈ tokenRules styles own lexicon, rule.IsTerminal := by
  intro rule hrule
  simp only [tokenRules, List.mem_append, List.mem_cons, List.not_mem_nil, or_false] at hrule
  rcases hrule with hrule | rfl | rfl | rfl | rfl | rfl | rfl
  · exact hown rule hrule
  · intro captures state spec hbuilt
    obtain ⟨keyword, name, rfl⟩ := exists_of_build_definitionRule hbuilt
    rfl
  all_goals exact isTerminal_matchGroup ..

/-- Of the rules of the languages, the one for tags alone asks for a span. -/
theorem isTerminal_of_mem_languages {styles : TokenStyles R T} {tag : String}
    {rules : List (Rule R T S)} (h : (tag, rules) ∈ languages styles) :
    ∀ rule ∈ rules, rule.IsTerminal ∨ rule = Xml.tagRule styles := by
  have hleaf {own : List (Rule R T S)} {lexicon : Lexicon} (hown : ∀ rule ∈ own, rule.IsTerminal) :
      ∀ rule ∈ tokenRules styles own lexicon, rule.IsTerminal ∨ rule = Xml.tagRule styles :=
    fun rule hrule => .inl (isTerminal_of_mem_tokenRules hown rule hrule)
  have hkotlin : ∀ rule ∈ (Kotlin.rules styles : List (Rule R T S)),
      rule.IsTerminal ∨ rule = Xml.tagRule styles := by
    refine hleaf ?_
    simp only [List.mem_cons, List.not_mem_nil, or_false, forall_eq_or_imp, forall_eq]
    refine ⟨isTerminal_matchGroup .., isTerminal_matchGroup .., isTerminal_matchGroup .., ?_, ?_⟩
    · intro captures state spec hbuilt
      obtain ⟨keyword, name, rfl⟩ := Kotlin.exists_of_build_fieldRule hbuilt
      rfl
    · intro captures state spec hbuilt
      obtain ⟨keyword, name, params, rfl⟩ := Kotlin.exists_of_build_functionRule hbuilt
      rfl
  have hxml : ∀ rule ∈ (Xml.rules styles : List (Rule R T S)),
      rule.IsTerminal ∨ rule = Xml.tagRule styles := by
    simp only [Xml.rules, List.mem_cons, List.not_mem_nil, or_false, forall_eq_or_imp, forall_eq]
    exact ⟨.inl (isTerminal_matchGroup ..), .inr trivial, .inl (isTerminal_matchGroup ..),
      .inl (isTerminal_matchGroup ..)⟩
  simp only [languages, List.mem_cons, List.not_mem_nil, or_false, Prod.mk.injEq] at h
  rcases h with ⟨-, rfl⟩ | ⟨-, rfl⟩ | ⟨-, rfl⟩ | ⟨-, rfl⟩ | ⟨-, rfl⟩ | ⟨-, rfl⟩ | ⟨-, rfl⟩ |
    ⟨-, rfl⟩ | ⟨-, rfl⟩ | ⟨-, rfl⟩ | ⟨-, rfl⟩
  · exact hkotlin
  · exact hkotlin
  all_goals first
    | exact hxml
    | exact hleaf (by
        simp only [List.mem_cons, List.not_mem_nil, or_false, forall_eq_or_imp, forall_eq,
          isTerminal_matchGroup, and_self])

theorem isSafe_tagRule (styles : TokenStyles R T) :
    (Xml.tagRule styles : Rule R T S).IsSafe := by
  refine (Xml.accounts_tagRule styles).isSafe
    fun window last state captures spec hmatch hbuilt span hspan => ?_
  obtain ⟨-, opening, -, htag⟩ := Xml.consumed_tag hmatch
  obtain ⟨_, -, hbuilt⟩ := exists_of_bind_eq_ok hbuilt
  rcases htag with ⟨hcontent, -, -⟩ | ⟨before, content, after, -, hcontent, haround, -, -, -⟩
  · rw [hcontent] at hbuilt
    rw [← Except.ok.inj hbuilt] at hspan
    cases hspan
  · refine ⟨2, before, content, after, hcontent, haround, ?_⟩
    simp only [hcontent.range?_eq] at hbuilt ⊢
    split_ifs at hbuilt
    · rw [← Except.ok.inj hbuilt] at hspan
      cases hspan
    · rw [← Except.ok.inj hbuilt] at hspan
      exact hspan

/-- The rules of the languages are safe. -/
theorem isSafe_of_mem_languages {styles : TokenStyles R T} {tag : String}
    {rules : List (Rule R T S)} (h : (tag, rules) ∈ languages styles) :
    ∀ rule ∈ rules, rule.IsSafe := by
  intro rule hrule
  rcases isTerminal_of_mem_languages h rule hrule with hterminal | rfl
  · exact (accounts_of_mem_languages h rule hrule).isSafe_of_isTerminal hterminal
  · exact isSafe_tagRule styles

theorem isSafe_blockRule {textStyles : StyleProvider R T} {languages : Languages R T S}
    (hlanguages : ∀ entry ∈ languages, ∀ rule ∈ entry.2, rule.IsSafe) (wrapper : Wrapper R T S) :
    (blockRule textStyles languages wrapper).IsSafe := by
  intro window last state captures hmatch
  refine ⟨Pattern.over_of_matchStart hmatch,
    Pattern.size_pos_of_isAdvancing fenceShapes.block_isAdvancing hmatch, ?_⟩
  simp only [blockRule, Logged.map]
  cases hbuild : (buildBlock textStyles languages captures state).value with
  | ok node => exact .inl ⟨_, rfl, fun span hspan => by cases hspan⟩
  | error error =>
    obtain ⟨tag, rules, body, hlookup, hparse⟩ := exists_of_buildBlock_eq_error hmatch hbuild
    exact .inr ⟨error, rfl, isUnmatched_of_parse (hlanguages _ (mem_of_lookup hlookup)) hparse⟩

theorem isSafe_inlineRule (textStyles background : StyleProvider R T) :
    (inlineRule textStyles background : Rule R T S).IsSafe := by
  intro window last state captures hmatch
  obtain ⟨body, hbody⟩ := Pattern.exists_range?_of_hasGroup fenceShapes.inlineCode_hasGroup hmatch
  refine ⟨Pattern.over_of_matchStart hmatch,
    Pattern.size_pos_of_isAdvancing fenceShapes.inlineCode_isAdvancing hmatch, ?_⟩
  simp only [inlineRule, Rule.matching, Logged.quiet, Captures.group_of_range? hbody, Except.map]
  exact .inl ⟨_, rfl, fun span hspan => by cases hspan⟩

end Code

/-! ### Blocks -/

namespace Block

theorem isSafe_headerRule (styles : HeaderStyles T) :
    (headerRule styles : Rule R T S).IsSafe := by
  refine (accounts_headerRule styles).isSafe_of_isMarked patternShapes.headerLine_isMarked
    (fun _ _ _ _ hmatch => Rule.tryMatch_of_atLineStart hmatch) ?_
  intro captures state spec hbuilt span hspan
  obtain ⟨signs, title, -, htitle, rfl⟩ := exists_of_build_headerRule hbuilt
  obtain rfl := Option.some.inj hspan
  exact htitle

theorem isSafe_underlinedHeaderRule (styles : HeaderStyles T) :
    (underlinedHeaderRule styles : Rule R T S).IsSafe := by
  refine (accounts_underlinedHeaderRule True styles).isSafe_of_isMarked
    patternShapes.underlinedHeader_isMarked
    (fun _ _ _ _ hmatch => Rule.tryMatch_of_atLineStart hmatch) ?_
  intro captures state spec hbuilt span hspan
  obtain ⟨level, title, -, htitle, rfl⟩ := exists_of_build_underlinedHeaderRule hbuilt
  obtain rfl := Option.some.inj hspan
  exact htitle

theorem isSafe_listItemRule (bullet : StyleProvider R T) :
    (listItemRule bullet : Rule R T S).IsSafe := by
  refine (accounts_listItemRule bullet).isSafe_of_isMarked patternShapes.listItem_isMarked
    (fun _ _ _ _ hmatch => Rule.tryMatch_of_atLineStart hmatch) ?_
  intro captures state spec hbuilt span hspan
  obtain ⟨item, hitem, rfl⟩ := exists_of_map_eq_ok hbuilt
  obtain rfl := Option.some.inj hspan
  exact hitem

theorem isSafe_quoteRule [QuoteState S] (styles : List T) :
    (quoteRule styles : Rule R T S).IsSafe := by
  refine (accounts_quoteRule True styles).isSafe
    fun window last state captures spec hmatch hbuilt span hspan => ?_
  obtain ⟨-, group, before, inner, after, hgroup, hframes, -, haround, -⟩ :=
    Pattern.exists_frames_of_marksEither patternShapes.quote_marksEither
      (matchStart_of_quoteRule hmatch)
  refine ⟨group, before, inner, after, hframes, haround, ?_⟩
  obtain ⟨range, hrange, rfl⟩ := exists_of_map_eq_ok hbuilt
  obtain rfl := Option.some.inj hspan
  rcases hgroup with rfl | ⟨rfl, hnone⟩
  · rw [hframes.range?_eq] at hrange ⊢
    rw [Except.ok.inj hrange]
  · rw [hnone] at hrange
    exact Captures.range?_of_span hrange

/-- A title can always be told from its class names. -/
theorem exists_splitTitle (title : String) :
    ∃ text names, splitTitle title = .ok (text, names) := by
  rw [splitTitle]
  split
  · exact ⟨title, [], rfl⟩
  · rename_i suffixed hmatch
    obtain ⟨range, hrange⟩ :=
      Pattern.exists_range?_of_hasGroup titleForms.classedTitle_hasGroup hmatch
    rw [Captures.group_of_range? hrange]
    exact ⟨_, _, rfl⟩

/-- A header with classes can only fail where its title cannot be parsed. -/
theorem exists_of_build_classedHeaderRule_eq_error {styles : HeaderStyles T}
    {classStyle : String → Option T} {titleRules : List (Rule R T S)} {state : S}
    {error : ParseError} (hmatch : underlinedHeader.matchStart window = some captures)
    (h : ((classedHeaderRule styles classStyle titleRules).build captures state).value =
      .error error) : ∃ text, (parse titleRules text state).value = .error error := by
  obtain ⟨line, hline⟩ :=
    Pattern.exists_range?_of_hasGroup patternShapes.underlinedHeader_hasGroup hmatch
  obtain ⟨-, title, -, htitle, -⟩ := exists_title hmatch
  obtain ⟨text, names, hsplit⟩ := exists_splitTitle title
  have hlevel : underlineLevel captures =
      .ok (if Text.slice captures.input line = "=" then 1 else 2) := by
    rw [underlineLevel, Captures.group_of_range? hline]
    rfl
  refine ⟨text, ?_⟩
  cases hchildren : (parse titleRules text state).value with
  | ok children =>
    cases (build_classedHeaderRule htitle hlevel hsplit hchildren).symm.trans h
  | error error' =>
    simp only [classedHeaderRule, Rule.atLineStart, htitle, hlevel, hsplit, bind, Except.bind,
      hchildren] at h
    rw [Except.error.inj h]

theorem isSafe_classedHeaderRule {styles : HeaderStyles T} {classStyle : String → Option T}
    {titleRules : List (Rule R T S)} (hrules : ∀ rule ∈ titleRules, rule.IsSafe) :
    (classedHeaderRule styles classStyle titleRules).IsSafe := by
  intro window last state captures hmatch
  have hstart : underlinedHeader.matchStart window = some captures :=
    Rule.tryMatch_of_atLineStart hmatch
  obtain ⟨hover, before, inner, after, hframes, -, haround, -⟩ :=
    Pattern.exists_frames_of_isMarked patternShapes.underlinedHeader_isMarked hstart
  refine ⟨hover, hframes.size_pos hover haround, ?_⟩
  cases hbuild : ((classedHeaderRule styles classStyle titleRules).build captures state).value with
  | ok spec =>
    refine .inl ⟨spec, rfl, fun span hspan => ?_⟩
    rw [span_of_build_classedHeaderRule hbuild] at hspan
    cases hspan
  | error error =>
    obtain ⟨text, hparse⟩ := exists_of_build_classedHeaderRule_eq_error hstart hbuild
    exact .inr ⟨error, rfl, isUnmatched_of_parse hrules hparse⟩

/-! ### The built-in rules -/

/-- The built-in rules: those of inline markup, of headers with or without classes, of list items,
quotes and code, and those of the languages.  Titles with classes and code blocks are parsed with
built-in rules. -/
inductive BuiltIn [HasTextStyles T] [QuoteState S] : Rule R T S → Prop
  | inline {rule : Rule R T S} (h : rule ∈ Inline.rules) : BuiltIn rule
  | header (styles : HeaderStyles T) {rule : Rule R T S} (h : rule ∈ headerRules styles) :
      BuiltIn rule
  | classedHeader (styles : HeaderStyles T) (classStyle : String → Option T)
      (titleRules : List (Rule R T S)) (h : ∀ rule ∈ titleRules, BuiltIn rule) :
      BuiltIn (classedHeaderRule styles classStyle titleRules)
  | listItem (bullet : StyleProvider R T) : BuiltIn (listItemRule bullet)
  | quote (styles : List T) : BuiltIn (quoteRule styles)
  | code (textStyles : StyleProvider R T) (languages : Code.Languages R T S)
      (wrapper : Code.Wrapper R T S) (h : ∀ entry ∈ languages, ∀ rule ∈ entry.2, BuiltIn rule) :
      BuiltIn (Code.blockRule textStyles languages wrapper)
  | inlineCode (textStyles background : StyleProvider R T) :
      BuiltIn (Code.inlineRule textStyles background)
  | token (styles : TokenStyles R T) {tag : String} {rules : List (Rule R T S)}
      {rule : Rule R T S} (h : (tag, rules) ∈ Code.languages styles) (hrule : rule ∈ rules) :
      BuiltIn rule

variable [HasTextStyles T] [QuoteState S]

/-- The built-in rules are safe. -/
theorem BuiltIn.isSafe {rule : Rule R T S} (h : BuiltIn rule) : rule.IsSafe := by
  induction h with
  | inline h => exact Inline.isSafe_of_mem_rules _ h
  | header styles h =>
    simp only [headerRules, List.mem_cons, List.not_mem_nil, or_false] at h
    rcases h with rfl | rfl
    · exact isSafe_headerRule styles
    · exact isSafe_underlinedHeaderRule styles
  | classedHeader styles classStyle titleRules _ ih => exact isSafe_classedHeaderRule ih
  | listItem bullet => exact isSafe_listItemRule bullet
  | quote styles => exact isSafe_quoteRule styles
  | code textStyles languages wrapper _ ih => exact Code.isSafe_blockRule ih wrapper
  | inlineCode textStyles background => exact Code.isSafe_inlineRule textStyles background
  | token styles h hrule => exact Code.isSafe_of_mem_languages h _ hrule

/-- Every match of a built-in rule is a start of its window and not empty, and its groups are
found.  If the rule asks for a span, then that is a slice of what has been consumed, and shorter.
So a parse with built-in rules in any order ends, whatever its source is: more steps than there are
bytes make no difference, and it only fails where no rule matches. -/
theorem builtIn_rules_make_progress :
    (∀ rule : Rule R T S, BuiltIn rule → ∀ window last state captures,
      rule.tryMatch window last state = some captures →
        (∃ rest, window = captures.consumed ++ rest) ∧ 0 < captures.consumed.utf8ByteSize ∧
        (∀ group matched, (rule.build captures state).value ≠
          .error (.missingGroup group matched)) ∧
        ∀ spec span, (rule.build captures state).value = .ok spec → spec.span = some span →
          ∃ inner, Text.slice? captures.consumed span = some inner ∧
            inner.utf8ByteSize < captures.consumed.utf8ByteSize) ∧
    ∀ rules : List (Rule R T S), (∀ rule ∈ rules, BuiltIn rule) → ∀ source state,
      (∀ bound, source.utf8ByteSize < bound →
        run rules source bound (.start source state) = parse rules source state) ∧
      ∀ error, (parse rules source state).value = .error error →
        ∃ offset snippet input, error = .noMatchingRule offset snippet input := by
  refine ⟨fun rule hrule window last state captures hmatch => ?_,
    fun rules hrules source state => ?_⟩
  · obtain ⟨hover, hsize, hbuilt⟩ := hrule.isSafe hmatch
    obtain ⟨rest, hsplit, -, -⟩ := hover.split
    refine ⟨⟨rest, hsplit⟩, by rwa [hover.utf8ByteSize_consumed], ?_⟩
    rcases hbuilt with ⟨spec, hspec, hstays⟩ | ⟨error, herror, offset, snippet, input, rfl⟩
    · refine ⟨fun group matched h => ?_, fun spec' span hspec' hspan => ?_⟩
      · cases hspec.symm.trans h
      · cases hspec.symm.trans hspec'
        exact hstays span hspan
    · refine ⟨fun group matched h => ?_, fun spec span hspec => ?_⟩
      · cases herror.symm.trans h
      · cases herror.symm.trans hspec
  · have hsafe : ∀ rule ∈ rules, rule.IsSafe := fun rule hmem => (hrules rule hmem).isSafe
    exact ⟨fun bound hbound => run_eq_parse (fun rule hmem => (hsafe rule hmem).shortens) hbound _,
      fun error herror => isUnmatched_of_parse hsafe herror⟩

/-- Headers whose titles are parsed without a rule for text. -/
def untitledRules : List (Rule Unit TextStyle Bool) :=
  [classedHeaderRule ⟨fun _ => .bold, fun _ => []⟩ (fun _ => none) Inline.markupRules]

/-- A title that cannot be parsed. -/
theorem builtIn_rules_make_progress_untitled :
    (∀ rule ∈ untitledRules, BuiltIn rule) ∧
      ∃ offset snippet input, (parse untitledRules "a\n===" false).value =
        .error (.noMatchingRule offset snippet input) := by
  have hrules : ∀ rule ∈ untitledRules, BuiltIn rule := by
    simp only [untitledRules, List.mem_singleton, forall_eq]
    exact .classedHeader _ _ _ fun rule hrule => .inline (List.mem_append_left _ hrule)
  refine ⟨hrules, ?_⟩
  cases hparse : (parse untitledRules "a\n===" false).value with
  | ok forest =>
    have hfails : (parse untitledRules "a\n===" false).value.isOk = false := by decide +kernel
    rw [hparse] at hfails
    cases hfails
  | error error =>
    obtain ⟨offset, snippet, input, rfl⟩ :=
      (builtIn_rules_make_progress.2 untitledRules hrules _ _).2 error hparse
    exact ⟨offset, snippet, input, rfl⟩

end Block

end RuledMarkup
