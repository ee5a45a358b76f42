import RuledMarkup.Proofs.Block.Markup
import RuledMarkup.Proofs.Inline.RoundTrip
import RuledMarkup.Proofs.Parse.Following
import RuledMarkup.Proofs.Pattern.LineEnds

/-!
# Titles without classes

The rule for underlined headers with classes parses a title at once, on its own and with the rules
of inline markup.  The rule for those without classes leaves the title to the parse of the document,
with all of its rules.  If no line ends in class names then both find the same: within a title no
line begins, so the rules for the starts of lines do not match there, and no line begins behind the
title or behind the whole header.

## Main definitions

* `Block.EndsInNames` : a text ends in class names.
* `Block.lines` : the lines of a text.
* `Block.Unclassed` : no part of a window that ends with a line has class names.
* `Block.headerDocument`, `Block.classedDocument` : the rules for headers and inline markup, without
  and with classes.
* `Block.InTitle`, `Block.AlikeUnclassed` : the windows at which the two kinds of rules find the
  same.

## Main results

* `Block.isSome_matchStart_iff` : a title has class names if it ends in them.
* `Block.descend_title` : a title is parsed by the rules of inline markup alone.
* `Block.matchesFollow_classedDocument` : without class names the rules build the same.
* `Block.classed_headers_extend` : without class names the two kinds of headers are the same.
-/

namespace RuledMarkup.Block

open Text (byteSize)

variable {R T S : Type}

/-! ### Class names -/

/-- The pattern for titles with class names, part by part. -/
def titleParts : List Regex :=
  [.look .start, .group 1 none (.loop true 0 none (.set (.compl (.one '\n')))), .set (.one ' '),
    .set (.one '\x7b'), .group 2 none (.loop true 1 none (.set (.union .word (.one ' ')))),
    .set (.one '\x7d'), .loop true 0 none (.set .space), .look .finish]

/-- What the written patterns are and what they show. -/
structure TitleForms : Prop where
  classedTitle_isAnchored : classedTitle.regex.isAnchored = true
  classedTitle_isPlain : classedTitle.regex.isPlain = true
  classedTitle_items : classedTitle.regex.items = titleParts
  classedTitle_hasGroup : classedTitle.hasGroup 1 = true
  underlinedHeader_endsBefore : underlinedHeader.endsBefore 1 '\n' = true
  underlinedHeader_endsApart : underlinedHeader.endsApart '\n' = true

theorem titleForms : TitleForms := by constructor <;> decide +kernel

/-- The text ends in words in braces behind a space.  White space may follow. -/
def EndsInNames (text : List Char) : Prop :=
  ∃ front names blank, text = front ++ ' ' :: '\x7b' :: (names ++ '\x7d' :: blank) ∧
    '\n' ∉ front ∧ names ≠ [] ∧ (∀ c ∈ names, Text.isWord c = true ∨ c = ' ') ∧
    ∀ c ∈ blank, Text.isSpace c = true

/-- It still does with more of the line before it. -/
theorem EndsInNames.append {text : List Char} (h : EndsInNames text) {start : List Char}
    (hstart : '\n' ∉ start) : EndsInNames (start ++ text) := by
  obtain ⟨front, names, blank, rfl, hfront, hnames⟩ := h
  exact ⟨start ++ front, names, blank, (List.append_assoc ..).symm, by simp [hstart, hfront],
    hnames⟩

/-- What is read as a title with class names is all of the text. -/
theorem endsInNames_of_readsEach {word rest : List Char} {bindings : Bindings}
    (h : Regex.ReadsEach titleParts [] word rest bindings) : rest = [] ∧ EndsInNames word := by
  rw [titleParts, Regex.readsEach_start_cons, Regex.readsEach_group_cons] at h
  obtain ⟨front, _, _, _, rfl, -, hfront, h⟩ := h
  rw [Regex.readsEach_one_cons] at h
  obtain ⟨_, rfl, h⟩ := h
  rw [Regex.readsEach_one_cons] at h
  obtain ⟨_, rfl, h⟩ := h
  rw [Regex.readsEach_group_cons] at h
  obtain ⟨names, _, _, _, rfl, -, hnames, h⟩ := h
  rw [Regex.readsEach_one_cons] at h
  obtain ⟨_, rfl, blank, _, _, _, rfl, -, hblank, hfinish⟩ := h
  rw [Regex.readsEach_singleton] at hfinish
  obtain ⟨rfl, -, hfinish⟩ := hfinish
  obtain ⟨-, hfront, -⟩ := Regex.reads_run_iff.1 hfront
  obtain ⟨hpos, hnames, -⟩ := Regex.reads_run_iff.1 hnames
  obtain ⟨-, hblank, -⟩ := Regex.reads_run_iff.1 hblank
  refine ⟨by simpa [Look.holds, Cursor.between] using hfinish, front, names, blank, by simp,
    fun hmem => ?_, List.ne_nil_of_length_pos hpos, fun c hc => ?_, hblank⟩
  · simpa [CharSet.mem] using hfront _ hmem
  · simpa [CharSet.mem] using hnames c hc

/-- A text that ends in names is read as a title with class names. -/
theorem EndsInNames.exists_readsEach {word : List Char} (h : EndsInNames word) :
    ∃ bindings, Regex.ReadsEach titleParts [] word [] bindings := by
  obtain ⟨front, names, blank, rfl, hfront, hne, hnames, hblank⟩ := h
  have hfrontReads (post : List Char) :
      (Regex.loop true 0 none (.set (.compl (.one '\n')))).Reads [] front post [] :=
    Regex.reads_run_iff.2 ⟨Nat.zero_le _, fun c hc => Inline.mem_compl_one.2 fun heq =>
      hfront (heq ▸ hc), rfl⟩
  have hnamesReads (pre post : List Char) :
      (Regex.loop true 1 none (.set (.union .word (.one ' ')))).Reads pre names post [] :=
    Regex.reads_run_iff.2
      ⟨List.length_pos_of_ne_nil hne, fun c hc => by simpa [CharSet.mem] using hnames c hc, rfl⟩
  have hblankReads (pre : List Char) :
      Regex.ReadsEach [.loop true 0 none (.set .space), .look .finish] pre blank [] [] := by
    refine ⟨blank, [], [], [], by simp, rfl,
      Regex.reads_run_iff.2 ⟨Nat.zero_le _, hblank, rfl⟩, ?_⟩
    rw [Regex.readsEach_singleton]
    exact ⟨rfl, rfl, rfl⟩
  obtain ⟨bindings, hbraces⟩ : ∃ bindings, Regex.ReadsEach (titleParts.drop 2) front
      (' ' :: '\x7b' :: (names ++ '\x7d' :: blank)) [] bindings :=
    ⟨_, Regex.readsEach_one_cons.2 ⟨_, rfl, Regex.readsEach_one_cons.2 ⟨_, rfl,
      Regex.readsEach_group_cons.2 ⟨names, _, [], [], rfl, rfl, hnamesReads _ _,
        Regex.readsEach_one_cons.2 ⟨_, rfl, hblankReads _⟩⟩⟩⟩⟩
  exact ⟨_, Regex.readsEach_start_cons.2 (Regex.readsEach_group_cons.2
    ⟨front, _, [], bindings, rfl, rfl, hfrontReads _, hbraces⟩)⟩

/-- A title has class names if it ends in names.  The pattern is a variable, since the one for
titles with class names is long when it is written out. -/
theorem isSome_matchStart_iff {pattern : Pattern} (hanchored : pattern.regex.isAnchored = true)
    (hplain : pattern.regex.isPlain = true) (hitems : pattern.regex.items = titleParts)
    {title : String} :
    (pattern.matchStart title).isSome = true ↔ EndsInNames title.toList := by
  rw [Option.isSome_iff_exists]
  constructor
  · rintro ⟨captures, h⟩
    obtain ⟨-, bindings, word, rest, -, htitle, -, hreads⟩ :=
      Pattern.exists_reads_of_matchStart hanchored h
    rw [← Regex.readsEach_items, hitems] at hreads
    obtain ⟨rfl, hnames⟩ := endsInNames_of_readsEach hreads
    rwa [htitle, List.append_nil]
  · intro h
    obtain ⟨bindings, hreads⟩ := h.exists_readsEach
    rw [← hitems, Regex.readsEach_items] at hreads
    exact Pattern.exists_matchStart_of_reads hanchored hplain (List.append_nil _).symm hreads

/-! ### Lines -/

/-- The lines of a text. -/
def lines (text : String) : List String := (text.toList.splitOn '\n').map String.ofList

/-- What stands before a line end is the end of a line. -/
theorem exists_mem_splitOn {a title b : List Char} (htitle : '\n' ∉ title) :
    ∃ start, '\n' ∉ start ∧ start ++ title ∈ (a ++ title ++ '\n' :: b).splitOn '\n' := by
  induction a with
  | nil =>
    have hnot : ∀ c ∈ title, (c == '\n') = false := fun c hc =>
      beq_eq_false_iff_ne.2 fun heq => htitle (heq ▸ hc)
    refine ⟨[], List.not_mem_nil, ?_⟩
    rw [List.splitOn, List.nil_append, List.splitOnP_append_cons_of_forall_mem hnot _ rfl]
    exact List.mem_cons_self
  | cons c a ih =>
    obtain ⟨start, hstart, hmem⟩ := ih
    rw [List.cons_append, List.cons_append, List.splitOn, List.splitOnP_cons_eq_if_modifyHead]
    split_ifs with hc
    · exact ⟨start, hstart, List.mem_cons_of_mem _ hmem⟩
    · rw [List.splitOn] at hmem
      cases hsplit : (a ++ title ++ '\n' :: b).splitOnP (· == '\n') with
      | nil => exact absurd hsplit (List.splitOnP_ne_nil _ _)
      | cons line later =>
        rw [hsplit] at hmem
        rcases List.mem_cons.1 hmem with rfl | hmem
        · refine ⟨c :: start, ?_, List.mem_cons_self⟩
          rw [List.mem_cons, not_or]
          exact ⟨fun heq => hc (beq_iff_eq.2 heq.symm), hstart⟩
        · exact ⟨start, hstart, List.mem_cons_of_mem _ hmem⟩

/-- No part of a window that goes up to a line end has class names. -/
def Unclassed (window : String) : Prop :=
  ∀ {a title b}, window.toList = a ++ title ++ '\n' :: b → '\n' ∉ title →
    classedTitle.matchStart (String.ofList title) = none

/-- If no line has class names then neither has the end of a line. -/
theorem unclassed_of_lines {source : String}
    (h : ∀ line ∈ lines source, classedTitle.matchStart line = none) : Unclassed source := by
  intro a title b hsource htitle
  obtain ⟨start, hstart, hmem⟩ := exists_mem_splitOn (a := a) (b := b) htitle
  have hline := h (String.ofList (start ++ title)) (List.mem_map.2 ⟨_, hsource ▸ hmem, rfl⟩)
  rw [← Option.not_isSome_iff_eq_none, isSome_matchStart_iff titleForms.classedTitle_isAnchored
    titleForms.classedTitle_isPlain titleForms.classedTitle_items, String.toList_ofList] at hline ⊢
  exact fun hnames => hline (hnames.append hstart)

theorem Unclassed.slice {window inner : String} {range : Text.ByteRange} (h : Unclassed window)
    (hslice : Text.slice? window range = some inner) : Unclassed inner := by
  obtain ⟨x, y, rfl, -⟩ := Text.slice?_eq_some_iff.1 hslice
  intro a title b hinner
  exact h (a := x.toList ++ a) (b := b ++ y.toList) (by simp [hinner])

/-! ### Underlined headers -/

/-- An underlined header has a title, which goes up to a line end. -/
theorem exists_title {window : String} {captures : Captures}
    (h : underlinedHeader.matchStart window = some captures) :
    ∃ range title, captures.span 1 = .ok range ∧ captures.group 1 = .ok title ∧
      Text.slice? window range = some title ∧ title ≠ "" ∧ '\n' ∉ title.toList ∧
      (Unclassed window → classedTitle.matchStart title = none) ∧
      startsLine (some captures.consumed) = false := by
  obtain ⟨hover, before, inner, after, hframes, -, -, hfilled⟩ :=
    Pattern.exists_frames_of_isMarked patternShapes.underlinedHeader_isMarked h
  obtain ⟨before', inner', after', hframes', hnot⟩ :=
    Pattern.exists_frames_of_endsBefore titleForms.underlinedHeader_endsBefore h
  have hsame : String.ofList inner = String.ofList inner' :=
    Except.ok.inj ((hframes.group_eq hover).symm.trans (hframes'.group_eq hover))
  obtain rfl : inner = inner' := by simpa using congrArg String.toList hsame
  obtain ⟨rest, hwindow, -, -⟩ := hover.split
  refine ⟨_, _, Captures.span_of_range? hframes'.range?_eq, hframes'.group_eq hover,
    hframes'.slice?_eq hover, ?_, by simpa using hnot, fun hunclassed => ?_, ?_⟩
  · simpa using hfilled patternShapes.underlinedHeader_fills
  · refine hunclassed (a := before') (b := after' ++ rest.toList) ?_ hnot
    rw [hwindow, String.toList_append, hframes'.toList_consumed]
    simp
  · have hlast := Pattern.getLast?_ne_of_endsApart titleForms.underlinedHeader_endsApart h
    rwa [startsLine, Option.all_some, String.endsWith_char_eq_getLast?, beq_eq_false_iff_ne]

/-- What the rule for headers with classes makes of a match. -/
theorem build_classedHeaderRule {styles : HeaderStyles T} {classStyle : String → Option T}
    {titleRules : List (Rule R T S)} {captures : Captures} {state : S} {title text : String}
    {level : Nat} {names : List String} {children : List (Node R T)}
    (htitle : captures.group 1 = .ok title) (hlevel : underlineLevel captures = .ok level)
    (hsplit : splitTitle title = .ok (text, names))
    (hchildren : (parse titleRules text state).value = .ok children) :
    ((classedHeaderRule styles classStyle titleRules).build captures state).value =
      .ok (.terminal (wrapInClasses classStyle names (.style [styles.style level] children))
        state) := by
  simp only [classedHeaderRule, Rule.atLineStart, htitle, hlevel, hsplit, bind, Except.bind]
  rw [hchildren]

/-- The rule for headers with classes asks for nothing to be parsed further. -/
theorem span_of_build_classedHeaderRule {styles : HeaderStyles T} {classStyle : String → Option T}
    {titleRules : List (Rule R T S)} {captures : Captures} {state : S} {spec : Spec R T S}
    (h : ((classedHeaderRule styles classStyle titleRules).build captures state).value = .ok spec) :
    spec.span = none := by
  simp only [classedHeaderRule, Rule.atLineStart] at h
  split at h
  · cases h
  · split at h
    · cases h
    · rw [← Except.ok.inj h]
      rfl

variable [HasTextStyles T] (styles : HeaderStyles T) (classStyle : String → Option T)

/-- The rules for headers without classes, and those of inline markup. -/
def headerDocument : List (Rule R T S) := headerRules styles ++ Inline.rules

/-- The rules for headers with classes, and those of inline markup. -/
def classedDocument : List (Rule R T S) := classedHeaderRules styles classStyle ++ Inline.rules

theorem accounts_of_mem_headerDocument :
    ∀ rule ∈ (headerDocument styles : List (Rule R T S)), rule.Accounts (.markup R T True) := by
  intro rule hrule
  simp only [headerDocument, headerRules, List.mem_append, List.mem_cons, List.not_mem_nil,
    or_false] at hrule
  rcases hrule with (rfl | rfl) | hrule
  · exact accounts_headerRule styles
  · exact accounts_underlinedHeaderRule True styles
  · exact Inline.accounts_of_mem_rules True rule hrule

/-- Where no line starts, the rules do not match or they ask for no empty spans. -/
theorem startsLine_or_accounts_of_mem_headerDocument :
    ∀ rule ∈ (headerDocument styles : List (Rule R T S)),
      (∀ window last state, (rule.tryMatch window last state).isSome = true →
        startsLine last = true) ∨ rule.Accounts (.markup R T False) := by
  intro rule hrule
  simp only [headerDocument, headerRules, List.mem_append, List.mem_cons, List.not_mem_nil,
    or_false] at hrule
  rcases hrule with (rfl | rfl) | hrule
  · exact .inl fun _ _ _ => Rule.startsLine_of_atLineStart
  · exact .inl fun _ _ _ => Rule.startsLine_of_atLineStart
  · exact .inr (Inline.accounts_of_mem_rules False rule hrule)

theorem catches_headerDocument : Catches (headerDocument styles : List (Rule R T S)) :=
  Inline.catches_of_mem (by simp [headerDocument, Inline.rules])

theorem keepsToWindow_classedDocument :
    ∀ rule ∈ (classedDocument styles classStyle : List (Rule R T S)), rule.KeepsToWindow := by
  intro rule hrule
  simp only [classedDocument, classedHeaderRules, List.mem_append, List.mem_cons, List.not_mem_nil,
    or_false] at hrule
  rcases hrule with (rfl | rfl) | hrule
  · exact keepsToWindow_of_accounts (accounts_of_mem_headerDocument styles) _
      (by simp [headerDocument, headerRules])
  · exact .atLineStart fun _ _ _ _ hmatch => Pattern.over_of_matchStart hmatch
  · exact keepsToWindow_of_accounts (Inline.accounts_of_mem_rules True) _ hrule

theorem shortens_classedDocument :
    ∀ rule ∈ (classedDocument styles classStyle : List (Rule R T S)), rule.Shortens := by
  intro rule hrule
  have hkeeps := keepsToWindow_classedDocument styles classStyle rule hrule
  simp only [classedDocument, classedHeaderRules, List.mem_append, List.mem_cons, List.not_mem_nil,
    or_false] at hrule
  rcases hrule with (rfl | rfl) | hrule
  · exact shortens_of_accounts (accounts_of_mem_headerDocument styles) _
      (by simp [headerDocument, headerRules])
  · intro window last state captures hmatch
    refine ⟨(hkeeps hmatch).size_le, fun _ spec hbuilt span hspan => ?_⟩
    cases (span_of_build_classedHeaderRule hbuilt).symm.trans hspan
  · exact shortens_of_accounts (Inline.accounts_of_mem_rules True) _ hrule

/-! ### Titles -/

theorem not_mem_of_slice? {window inner : String} {range : Text.ByteRange} {c : Char}
    (h : c ∉ window.toList) (hslice : Text.slice? window range = some inner) :
    c ∉ inner.toList := by
  obtain ⟨a, b, rfl, -⟩ := Text.slice?_eq_some_iff.1 hslice
  exact fun hmem => h (by simp [hmem])

/-- Where no line ends, the rules of inline markup do not look at the text consumed last. -/
theorem tryMatch_within_line {window : String} (hwindow : '\n' ∉ window.toList)
    (last last' : Option String) (state : S) :
    ∀ rule ∈ (Inline.rules : List (Rule R T S)),
      rule.tryMatch window last state = rule.tryMatch window last' state := by
  intro rule hrule
  simp only [Inline.rules_eq, List.mem_cons, List.not_mem_nil, or_false] at hrule
  rcases hrule with rfl | rfl | rfl | rfl | rfl | rfl | rfl
  · rfl
  · have hnone : Inline.newline.matchStart window = none := by
      refine Pattern.matchStart_eq_none Inline.patternForms.newline_opens fun c hc hmem => ?_
      obtain rfl := List.mem_singleton.1 hmem
      exact hwindow (List.mem_of_mem_head? hc)
    rw [Inline.newlineRule, Rule.tryMatch_atLineStart_eq_none fun _ => hnone,
      Rule.tryMatch_atLineStart_eq_none fun _ => hnone]
  all_goals rfl

/-- Within a line the rules for headers do not match. -/
theorem matchFirst_within_line {window : String} {last : Option String}
    (hlast : startsLine last = false) (hwindow : '\n' ∉ window.toList) (last' : Option String)
    (state : S) :
    matchFirst (Inline.rules : List (Rule R T S)) window last' state =
      matchFirst (headerDocument styles) window last state := by
  have hheaders : matchFirst (headerRules styles : List (Rule R T S)) window last state = none := by
    refine matchFirst_eq_none_iff.2 fun rule hrule => ?_
    simp only [headerRules, List.mem_cons, List.not_mem_nil, or_false] at hrule
    rcases hrule with rfl | rfl <;>
    · refine Rule.tryMatch_atLineStart_eq_none fun hstart => ?_
      rw [hlast] at hstart
      cases hstart
  rw [headerDocument, matchFirst_append_of_none hheaders]
  exact matchFirst_congr (tryMatch_within_line hwindow last' last state)

/-- No line begins at the window, and none ends in it. -/
def InTitle (window : String) (last _ : Option String) : Prop :=
  startsLine last = false ∧ '\n' ∉ window.toList

theorem matchesFollow_title (source source' : String) :
    MatchesFollow (headerDocument styles : List (Rule R T S)) Inline.rules source source'
      InTitle := by
  rintro depth offset offset' window last last' state captures spec inner ⟨hlast, hwindow⟩ hgo
    hbuild hinner hok
  obtain ⟨rule, hfirst, hsize, hbuilt⟩ := exists_rule_of_buildFirst hbuild
  obtain ⟨rest, hsplit, -, -⟩ := (over_of_buildFirst
    (keepsToWindow_of_accounts (accounts_of_mem_headerDocument styles)) hbuild).split
  have hconsumed : startsLine (some captures.consumed) = false :=
    startsLine_eq_false fun hmem => hwindow (by rw [hsplit]; simp [hmem])
  obtain ⟨inner', hinner', hfollows⟩ := hgo.descendInner
    (fun _ hslice => ⟨hconsumed, not_mem_of_slice? hwindow hslice⟩) hinner hok
  exact ⟨spec, inner', buildFirst_of_matchFirst
    ((matchFirst_within_line styles hlast hwindow last' state).trans hfirst) hsize hbuilt,
    hinner', hfollows.placed _⟩

theorem restsFollow_title (source : String) :
    RestsFollow (headerDocument styles : List (Rule R T S)) source InTitle := by
  rintro depth offset window last last' state captures spec below middle middle' ⟨hlast, hwindow⟩
    hbuild hinner -
  have hrules := startsLine_or_accounts_of_mem_headerDocument (R := R) (S := S) styles
  have hnever {x : String} {a : List (Node R T)} : ¬ (Account.markup R T False).part x a :=
    fun hpart => hpart.1
  obtain ⟨hwithin, rest, -, hrest, hslice⟩ := withinLine_of_buildFirst hrules hnever hlast hwindow
    hbuild (fun hlast hwindow => descend_within_line hrules hnever depth hlast hwindow) hinner
  rw [Text.slice_of_slice? hslice]
  exact ⟨hwithin, hrest⟩

/-- What is found in a title is found by the rules of inline markup alone, and at the start of a
parse as well. -/
theorem descend_title (source source' : String) (depth : Nat) :
    (descend (headerDocument styles : List (Rule R T S)) source depth).Follows InTitle
      (descend Inline.rules source' depth) :=
  descend_follows (matchesFollow_title styles source source') (restsFollow_title styles source)
    depth

/-- What is found in the title of a header is the forest that the title is parsed to on its own, and
no line begins behind it. -/
theorem exists_parse_title {source title : String} {depth offset : Nat} {last : Option String}
    {state : S} {inner : Outcome R T} (hne : title ≠ "") (htitle : '\n' ∉ title.toList)
    (hlast : startsLine last = false)
    (h : descend (headerDocument styles) source depth offset title last state = some inner)
    (hok : inner.result.isOk = true) :
    ∃ below middle, inner = .whole below middle ∧ startsLine middle = false ∧
      (parse (Inline.rules : List (Rule R T S)) title state).value = .ok below := by
  have hwithin := descend_within_line (startsLine_or_accounts_of_mem_headerDocument styles)
    (fun hpart => hpart.1) depth hlast htitle h
  obtain ⟨outcome', houtcome', hfollows⟩ : ∃ outcome',
      descend (Inline.rules : List (Rule R T S)) title depth 0 title none state = some outcome' ∧
        inner.Follows outcome' :=
    descend_title styles source title depth ⟨hlast, htitle⟩ h hok
  have hvalue := parse_of_descend (Inline.accounts_of_mem_rules True) hne houtcome'
  rw [hfollows.result_eq] at hvalue
  cases inner with
  | whole below middle => exact ⟨below, middle, rfl, hwithin, hvalue⟩
  | stopped below => exact hwithin.elim
  | failed error => cases hok

/-! ### Documents -/

/-- The window has no class names, and a line begins at it for both texts or for neither. -/
def AlikeUnclassed (window : String) (last last' : Option String) : Prop :=
  Unclassed window ∧ startsLine last = startsLine last'

/-- Where a rule of the first list matches first, the same rule of the second list does, or the rule
for underlined headers with classes in the place of the one without. -/
theorem matchFirst_classedDocument {window : String} {last last' : Option String} {state : S}
    {rule : Rule R T S} {captures : Captures} (hlast : startsLine last = startsLine last')
    (h : matchFirst (headerDocument styles) window last state = some (rule, captures)) :
    matchFirst (classedDocument styles classStyle) window last' state = some (rule, captures) ∨
      rule = underlinedHeaderRule styles ∧
        matchFirst (classedDocument styles classStyle : List (Rule R T S)) window last' state =
          some (classedHeaderRule styles classStyle Inline.rules, captures) := by
  have hheader : (headerRule styles : Rule R T S).tryMatch window last state =
      (headerRule styles).tryMatch window last' state :=
    Rule.SeesLines.atLineStart (Rule.seesLines_of_tryMatch rfl) hlast window state
  have hunderlined : (underlinedHeaderRule styles : Rule R T S).tryMatch window last state =
      (classedHeaderRule styles classStyle Inline.rules : Rule R T S).tryMatch window last' state :=
    Rule.SeesLines.atLineStart (Rule.seesLines_of_tryMatch rfl) hlast window state
  have hinline :=
    matchFirst_elsewhere (Inline.seesLines_of_mem_rules (R := R) (T := T)) hlast window state
  rw [headerDocument, headerRules, List.cons_append, List.cons_append, List.nil_append] at h
  rw [classedDocument, classedHeaderRules, List.cons_append, List.cons_append, List.nil_append]
  cases hfirst : (headerRule styles : Rule R T S).tryMatch window last' state with
  | some captures' =>
    rw [matchFirst_cons_of_some (hheader.trans hfirst)] at h
    exact .inl ((matchFirst_cons_of_some hfirst).trans h)
  | none =>
    rw [matchFirst_cons_of_none (hheader.trans hfirst)] at h
    rw [matchFirst_cons_of_none hfirst]
    cases hsecond : (classedHeaderRule styles classStyle Inline.rules :
        Rule R T S).tryMatch window last' state with
    | some captures' =>
      rw [matchFirst_cons_of_some (hunderlined.trans hsecond)] at h
      obtain ⟨rfl, rfl⟩ := Prod.mk.inj (Option.some.inj h)
      exact .inr ⟨rfl, matchFirst_cons_of_some hsecond⟩
    | none =>
      rw [matchFirst_cons_of_none (hunderlined.trans hsecond), hinline] at h
      exact .inl ((matchFirst_cons_of_none hsecond).trans h)

/-- Without class names the rule for underlined headers with classes builds the node at once that
the one without classes builds and the parse of the document fills. -/
theorem exists_build_classedHeaderRule {source window : String} {depth offset : Nat}
    {captures : Captures} {state : S} {spec : Spec R T S} {inner : Outcome R T}
    (hunclassed : Unclassed window) (hmatch : underlinedHeader.matchStart window = some captures)
    (hbuilt : ((underlinedHeaderRule styles).build captures state).value = .ok spec)
    (hinner : spec.descendInner (descend (headerDocument styles) source depth) offset window
      captures.consumed = some inner) (hok : inner.result.isOk = true) :
    ∃ header, ((classedHeaderRule styles classStyle Inline.rules).build captures state).value =
        .ok (.terminal header state) ∧
      (inner.placed spec.root).Follows (.whole [header] (some captures.consumed)) := by
  obtain ⟨level, range, hlevel, hrange, rfl⟩ := exists_of_build_underlinedHeaderRule hbuilt
  obtain ⟨range', title, hrange', htitle, hslice, hne, hline, hunclassedTitle, hlast⟩ :=
    exists_title hmatch
  obtain rfl : range = range' := Except.ok.inj (hrange.symm.trans hrange')
  have hsplit : splitTitle title = .ok (title, []) := by
    rw [splitTitle, hunclassedTitle hunclassed]
  obtain ⟨below, middle, rfl, hmiddle, hparse⟩ :=
    exists_parse_title styles hne hline hlast
      ((Spec.descendInner_of_slice? rfl hslice hne).symm.trans hinner) hok
  refine ⟨.style [styles.style level] below,
    build_classedHeaderRule htitle hlevel hsplit hparse, ?_, hlast.trans hmiddle.symm⟩
  rfl

/-- Without class names the rules for documents with classes build what those without build. -/
theorem matchesFollow_classedDocument (source : String) :
    MatchesFollow (headerDocument styles : List (Rule R T S)) (classedDocument styles classStyle)
      source source AlikeUnclassed := by
  rintro depth offset offset' window last last' state captures spec inner ⟨hunclassed, hlast⟩ hgo
    hbuild hinner hok
  obtain ⟨rule, hfirst, hsize, hbuilt⟩ := exists_rule_of_buildFirst hbuild
  rcases matchFirst_classedDocument styles classStyle hlast hfirst with hfirst' | ⟨rfl, hfirst'⟩
  · obtain ⟨inner', hinner', hfollows⟩ :=
      hgo.descendInner (fun _ hslice => ⟨hunclassed.slice hslice, rfl⟩) hinner hok
    exact ⟨spec, inner', buildFirst_of_matchFirst hfirst' hsize hbuilt, hinner',
      hfollows.placed _⟩
  · have hmatch : underlinedHeader.matchStart window = some captures :=
      Rule.tryMatch_of_atLineStart (mem_of_matchFirst hfirst).2
    obtain ⟨header, hbuilt', hfollows⟩ := exists_build_classedHeaderRule styles classStyle
      hunclassed hmatch hbuilt hinner hok
    refine ⟨.terminal header state, .whole [] (some captures.consumed),
      buildFirst_of_matchFirst hfirst' hsize hbuilt', rfl, ?_⟩
    rwa [Outcome.placed, Spec.terminal, Node.addChildren_nil]

/-- What is left of a window without class names has none. -/
theorem restsFollow_headerDocument (source : String) :
    RestsFollow (headerDocument styles : List (Rule R T S)) source AlikeUnclassed := by
  rintro depth offset window last last' state captures spec below middle middle' ⟨hunclassed, -⟩
    hbuild - hmiddle
  obtain ⟨rest, -, -, hslice⟩ := (over_of_buildFirst
    (keepsToWindow_of_accounts (accounts_of_mem_headerDocument styles)) hbuild).split
  rw [Text.slice_of_slice? hslice]
  exact ⟨hunclassed.slice hslice, hmiddle.symm⟩

/-- If no line of a source ends in class names, then it is parsed to the same forest whether its
headers may have classes or not. -/
theorem classed_headers_extend (source : String) (state : S)
    (h : ∀ line ∈ lines source, classedTitle.matchStart line = none) :
    ∃ forest, (parse (classedHeaderRules styles classStyle ++ Inline.rules : List (Rule R T S))
        source state).value = .ok forest ∧
      (parse (headerRules styles ++ Inline.rules) source state).value = .ok forest := by
  rw [← classedDocument, ← headerDocument]
  by_cases hsource : source = ""
  · subst hsource
    exact ⟨[], rfl, rfl⟩
  · have haccounts := accounts_of_mem_headerDocument (R := R) (S := S) styles
    obtain ⟨depth, outcome, houtcome⟩ := exists_descend haccounts hsource none state
    obtain ⟨forest, hforest⟩ := (accounts_of_descend haccounts (catches_headerDocument styles)
      depth hsource houtcome).exists_result
    obtain ⟨outcome', houtcome', hfollows⟩ : ∃ outcome',
        descend (classedDocument styles classStyle : List (Rule R T S)) source depth 0 source none
          state = some outcome' ∧ outcome.Follows outcome' :=
      descend_follows (matchesFollow_classedDocument styles classStyle source)
        (restsFollow_headerDocument styles source) depth ⟨unclassed_of_lines h, rfl⟩ houtcome
        (by rw [hforest]; rfl)
    refine ⟨forest, ?_, (parse_of_descend haccounts hsource houtcome).trans hforest⟩
    rw [parse_value_of_descend (shortens_classedDocument styles classStyle)
      (keepsToWindow_classedDocument styles classStyle) hsource houtcome', hfollows.result_eq,
      hforest]

/-- A title in italics, with and without classes. -/
theorem classed_headers_extend_slanted_title :
    (∀ line ∈ lines "a *b*\n===\nc", classedTitle.matchStart line = none) ∧
      ∃ forest,
        (parse (classedHeaderRules ⟨fun _ => .bold, fun _ => []⟩ (fun _ => some .underline) ++
          Inline.rules : List (Rule Unit TextStyle Unit)) "a *b*\n===\nc" ()).value = .ok forest ∧
        (parse (headerRules ⟨fun _ => .bold, fun _ => []⟩ ++ Inline.rules) "a *b*\n===\nc"
          ()).value = .ok forest :=
  have hlines : ∀ line ∈ lines "a *b*\n===\nc", classedTitle.matchStart line = none := by
    decide +kernel
  ⟨hlines, classed_headers_extend _ _ _ () hlines⟩

end RuledMarkup.Block
