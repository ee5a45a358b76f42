import RuledMarkup.Proofs.Node.Layers
import RuledMarkup.Proofs.Viewer.Bullets
import RuledMarkup.Proofs.Viewer.Characters

/-!
# The color of a character

The lines of a document are made of byte ranges and of the order in which these were attached.
They show a character in the color of the narrowest range, and of ranges of one width in that of the
range attached last.  In a forest the narrowest range is the one of the deepest node.  If nodes
above it have the same range and set a color as well, then the outermost of them wins.

## Main definitions

* `Mark.foreground` : the color of letters that a mark sets.
* `settersAt` : the marks that set the color at a byte.

## Main results

* `foreground_styleAt` : the color at a byte.
* `Viewer.foreground_shown` : which node decides on the color of a character.
-/

namespace RuledMarkup

open Text Terminal

/-- The color of letters that the attribute sets. -/
def Terminal.Attribute.foreground : Attribute → Option Color
  | .style own => own.foreground
  | .bullet _ => none

/-- The color of letters that the mark sets: that of the style attached last. -/
def Mark.foreground (mark : Mark Attribute) : Option Color :=
  (mark.styles.filterMap Attribute.foreground).getLast?

/-- Whether the body of a code block starts on a new line shows in the white space before it. -/
theorem Code.startsOnNewLine_eq (captures : Captures) :
    startsOnNewLine captures =
      match captures.text? 2 with
      | some space => decide ('\n' ∈ space.toList)
      | none => decide ('\n' ∈ ((captures.text? 3).getD "").toList) := by
  rw [startsOnNewLine]
  cases captures.text? 2 <;> exact String.contains_char_eq

namespace Viewer

/-- The marks that set the color of letters at a byte. -/
def settersAt (marks : List (Mark Attribute)) (i : Nat) : List (Mark Attribute) :=
  marks.filter fun mark => mark.range.contains i && mark.foreground.isSome

/-- Of the nodes that set the color of letters at a byte, the one of this mark is the deepest. -/
def IsDeepest (marks : List (Mark Attribute)) (i : Nat) (deepest : Mark Attribute) : Prop :=
  deepest ∈ settersAt marks i ∧ ∀ other ∈ settersAt marks i, other.depth ≤ deepest.depth

/-- Of the nodes that set the color of letters at a byte and have the range of another mark, the one
of this mark is the outermost. -/
def IsOutermost (marks : List (Mark Attribute)) (i : Nat) (range : ByteRange)
    (outer : Mark Attribute) : Prop :=
  outer ∈ settersAt marks i ∧ outer.range = range ∧
    ∀ other ∈ settersAt marks i, other.range = range → outer.depth ≤ other.depth

instance (marks : List (Mark Attribute)) (i : Nat) (deepest : Mark Attribute) :
    Decidable (IsDeepest marks i deepest) :=
  inferInstanceAs (Decidable (_ ∧ _))

instance (marks : List (Mark Attribute)) (i : Nat) (range : ByteRange) (outer : Mark Attribute) :
    Decidable (IsOutermost marks i range outer) :=
  inferInstanceAs (Decidable (_ ∧ _))

/-! ### The color at a byte -/

/-- The color that a span sets at a byte. -/
def colorAt (i : Nat) (span : AttributeSpan) : Option Color :=
  if span.range.contains i then span.style.foreground else none

theorem foreground_layAt (i : Nat) (style : Style) (span : AttributeSpan) :
    (layAt i style span).foreground = (colorAt i span).or style.foreground := by
  rw [layAt, colorAt]
  cases span.style with
  | bullet => simp [Attribute.foreground]
  | style upper => split_ifs <;> simp [Style.patch, Attribute.foreground]

/-- The color at a byte is the one that is set last. -/
theorem foreground_styleAt (spans : List AttributeSpan) (i : Nat) :
    (styleAt spans i).foreground = (spans.filterMap (colorAt i)).getLast? := by
  suffices ∀ style : Style, (spans.foldl (layAt i) style).foreground =
      (spans.filterMap (colorAt i)).getLast?.or style.foreground by
    rw [styleAt, this, Style.layered_plain, Option.or_none]
  induction spans with
  | nil => simp
  | cons span spans ih =>
    intro style
    rw [List.foldl_cons, ih, foreground_layAt, List.filterMap_cons]
    cases colorAt i span with
    | none => rfl
    | some color =>
      rw [List.getLast?_cons]
      cases (spans.filterMap (colorAt i)).getLast? <;> rfl

/-! ### Sorting by width -/

/-- In a list that is sorted down to `least`, what is found last is found among the least. -/
theorem getLast?_filterMap_of_pairwise {α β : Type} {key : α → Nat} {f : α → Option β} {l : List α}
    {least : Nat} (hsorted : l.Pairwise fun a b => key b ≤ key a)
    (hleast : ∀ a ∈ l, (f a).isSome = true → least ≤ key a)
    (hmem : ∃ a ∈ l, (f a).isSome = true ∧ key a = least) :
    (l.filterMap f).getLast? = ((l.filter (key · = least)).filterMap f).getLast? := by
  induction l with
  | nil => simp at hmem
  | cons a l ih =>
    obtain ⟨ha, hsorted⟩ := List.pairwise_cons.1 hsorted
    obtain ⟨-, hleast⟩ := List.forall_mem_cons.1 hleast
    by_cases hlater : ∃ b ∈ l, (f b).isSome = true ∧ key b = least
    · obtain ⟨b, hb, hsome, hkey⟩ := hlater
      obtain ⟨color, hcolor⟩ := Option.isSome_iff_exists.1 hsome
      have hne : (l.filterMap f).getLast? ≠ none := fun h =>
        List.ne_nil_of_mem (List.mem_filterMap.2 ⟨b, hb, hcolor⟩) (List.getLast?_eq_none_iff.1 h)
      obtain ⟨last, hlast⟩ := Option.ne_none_iff_exists'.1 hne
      have hih := ih hsorted hleast ⟨b, hb, hsome, hkey⟩
      have hfront (front more : List α) (h : (more.filterMap f).getLast? = some last) :
          ((front ++ more).filterMap f).getLast? = some last := by
        rw [List.filterMap_append, List.getLast?_append, h, Option.some_or]
      rw [← List.singleton_append, List.filter_append, hfront _ _ hlast,
        hfront _ _ (hih.symm.trans hlast)]
    · -- Nothing is found further on, so it is the first one that is found.
      have hkey : key a = least := by
        obtain ⟨c, hc, hsome, hkey⟩ := hmem
        rcases List.mem_cons.1 hc with rfl | hc
        · exact hkey
        · exact absurd ⟨c, hc, hsome, hkey⟩ hlater
      have hnone : ∀ b ∈ l, f b = none := fun b hb => by
        by_contra hsome
        have hsome := Option.isSome_iff_ne_none.2 hsome
        exact hlater ⟨b, hb, hsome, Nat.le_antisymm (hkey ▸ ha b hb) (hleast b hb hsome)⟩
      have hnil (more : List α) (h : ∀ b ∈ more, f b = none) : more.filterMap f = [] :=
        List.filterMap_eq_nil_iff.2 h
      rw [List.filterMap_cons, List.filter_cons_of_pos (by simpa using hkey), List.filterMap_cons,
        hnil l hnone, hnil _ fun b hb => hnone b (List.mem_filter.1 hb).1]

/-! ### The node that decides -/

/-- Styles that set the color of letters. -/
def SetsForeground (styles : List Attribute) : Prop :=
  (styles.filterMap Attribute.foreground).getLast?.isSome = true

variable {marks : List (Mark Attribute)} {i : Nat} {a b : Mark Attribute}

theorem mem_settersAt :
    a ∈ settersAt marks i ↔
      a ∈ marks ∧ a.range.contains i = true ∧ SetsForeground a.styles := by
  simp [settersAt, SetsForeground, Mark.foreground]

/-- The color that the spans of a mark set at a byte, if the mark holds it. -/
theorem getLast?_colorAt_spans (h : a.range.contains i = true) :
    (a.spans.filterMap (colorAt i)).getLast? = a.foreground := by
  have hcolor : colorAt i ∘ (fun style => ⟨style, a.range⟩) = Attribute.foreground := by
    funext style
    simp [colorAt, h]
  rw [Mark.spans, List.filterMap_map, hcolor, Mark.foreground]

/-- A span that sets the color at a byte comes from a mark that does. -/
theorem exists_mem_settersAt {span : AttributeSpan} (h : span ∈ spansOf marks)
    (hcolor : (colorAt i span).isSome = true) :
    ∃ mark ∈ settersAt marks i, span.range = mark.range := by
  obtain ⟨mark, hmark, hrange, hstyle⟩ := mem_spansOf.1 h
  rw [colorAt] at hcolor
  split_ifs at hcolor with hcontains
  · obtain ⟨color, hcolor⟩ := Option.isSome_iff_exists.1 hcolor
    refine ⟨mark, mem_settersAt.2 ⟨hmark, hrange ▸ hcontains, ?_⟩, hrange⟩
    exact List.getLast?_isSome.2 (List.ne_nil_of_mem (List.mem_filterMap.2 ⟨_, hstyle, hcolor⟩))
  · cases hcolor

/-- A mark that sets the color at a byte has a span that does. -/
theorem exists_mem_spansOf (h : a ∈ settersAt marks i) :
    ∃ span ∈ spansOf marks, span.range = a.range ∧ (colorAt i span).isSome = true := by
  obtain ⟨hmem, hcontains, hsets⟩ := mem_settersAt.1 h
  obtain ⟨color, hcolor⟩ := List.exists_mem_of_ne_nil _ (List.getLast?_isSome.1 hsets)
  obtain ⟨style, hstyle, hcolor⟩ := List.mem_filterMap.1 hcolor
  exact ⟨⟨style, a.range⟩, mem_spansOf.2 ⟨a, hmem, rfl, hstyle⟩, rfl,
    by simp [colorAt, hcontains, hcolor]⟩

/-- Of two marks that set the color at a byte, the first one is deeper and within the second one. -/
theorem depth_lt_of_under (h : Mark.Under SetsForeground a b) (ha : a ∈ settersAt marks i)
    (hb : b ∈ settersAt marks i) :
    b.depth < a.depth ∧ b.range.start ≤ a.range.start ∧ a.range.stop ≤ b.range.stop := by
  obtain ⟨-, ha, -⟩ := mem_settersAt.1 ha
  obtain ⟨-, hb, hsets⟩ := mem_settersAt.1 hb
  simp only [ByteRange.contains, Bool.and_eq_true, decide_eq_true_eq] at ha hb
  rcases h with hapart | hapart | ⟨hdepth, hwithin⟩
  · omega
  · omega
  · exact ⟨hdepth, hwithin hsets⟩

/-- Of the marks that set the color at a byte, the deepest one is within all of them. -/
theorem within_of_deepest (hunder : marks.Pairwise (Mark.Under SetsForeground))
    {deepest : Mark Attribute} (hdeepest : IsDeepest marks i deepest) (ha : a ∈ settersAt marks i) :
    a.range.start ≤ deepest.range.start ∧ deepest.range.stop ≤ a.range.stop := by
  obtain ⟨hdeepest, hdepth⟩ := hdeepest
  obtain ⟨before, after, rfl⟩ := List.append_of_mem (mem_settersAt.1 hdeepest).1
  rw [List.pairwise_append, List.pairwise_cons] at hunder
  obtain ⟨-, ⟨hafter, -⟩, hbefore⟩ := hunder
  have hmem := (mem_settersAt.1 ha).1
  rw [List.mem_append, List.mem_cons] at hmem
  rcases hmem with hmem | rfl | hmem
  · have := depth_lt_of_under (hbefore a hmem deepest List.mem_cons_self) ha hdeepest
    have := hdepth a ha
    omega
  · exact ⟨Nat.le_refl _, Nat.le_refl _⟩
  · exact (depth_lt_of_under (hafter a hmem) hdeepest ha).2

/-- A range that holds another one of the same size is the same range. -/
theorem eq_of_within {r s : ByteRange} (hcontains : r.contains i = true)
    (hwithin : s.start ≤ r.start ∧ r.stop ≤ s.stop) (hsize : s.size = r.size) : s = r := by
  rcases r with ⟨start, stop⟩
  rcases s with ⟨start', stop'⟩
  simp only [ByteRange.contains, ByteRange.size, Bool.and_eq_true, decide_eq_true_eq] at *
  congr 1 <;> omega

/-- Behind the outermost of the marks that have one range, none of that width sets a color. -/
theorem colorAt_eq_none_behind {before after : List (Mark Attribute)} {outer : Mark Attribute}
    (hunder : (before ++ outer :: after).Pairwise (Mark.Under SetsForeground))
    (houter : IsOutermost (before ++ outer :: after) i outer.range outer) :
    ∀ span ∈ (spansOf after).filter (·.range.size = outer.range.size), colorAt i span = none := by
  intro span hspan
  by_contra hcolor
  obtain ⟨houter, -, houtermost⟩ := houter
  obtain ⟨hspan, hwidth⟩ := List.mem_filter.1 hspan
  obtain ⟨other, hother, hsame⟩ := exists_mem_settersAt hspan (Option.isSome_iff_ne_none.2 hcolor)
  obtain ⟨hlater, hsets⟩ := mem_settersAt.1 hother
  have hmem : other ∈ settersAt (before ++ outer :: after) i :=
    mem_settersAt.2 ⟨by simp [hlater], hsets⟩
  rw [List.pairwise_append, List.pairwise_cons] at hunder
  obtain ⟨habove, hwithin⟩ := depth_lt_of_under (hunder.2.1.1 other hlater) houter hmem
  rw [decide_eq_true_eq, hsame] at hwidth
  have := houtermost other hmem (eq_of_within (mem_settersAt.1 houter).2.1 hwithin hwidth)
  omega

/-- Of the spans with the width of the outermost mark that has its range, its own set the color
last. -/
theorem getLast?_colorAt_of_isOutermost (hunder : marks.Pairwise (Mark.Under SetsForeground))
    {outer : Mark Attribute} (houter : IsOutermost marks i outer.range outer) :
    (((spansOf marks).filter (·.range.size = outer.range.size)).filterMap (colorAt i)).getLast? =
      outer.foreground := by
  obtain ⟨hmem, hcontains, hsets⟩ := mem_settersAt.1 houter.1
  obtain ⟨before, after, rfl⟩ := List.append_of_mem hmem
  have hown : (spansOf [outer]).filter (·.range.size = outer.range.size) = outer.spans := by
    rw [spansOf_cons, spansOf_nil, List.append_nil, List.filter_eq_self]
    simp [Mark.spans]
  have hafter : ((spansOf after).filter (·.range.size = outer.range.size)).filterMap
      (colorAt i) = [] :=
    List.filterMap_eq_nil_iff.2 (colorAt_eq_none_behind hunder houter)
  obtain ⟨color, hcolor⟩ := Option.isSome_iff_exists.1 hsets
  have hset : outer.foreground = some color := hcolor
  rw [← List.singleton_append, spansOf_append, spansOf_append, List.filter_append,
    List.filter_append, hown, List.filterMap_append, List.filterMap_append, hafter,
    List.append_nil, List.getLast?_append, getLast?_colorAt_spans hcontains, hset, Option.some_or]

/-- The color at a byte is set by the outermost of the marks that have the range of the deepest
mark that sets it. -/
theorem foreground_styleAt_byWidth (hunder : marks.Pairwise (Mark.Under SetsForeground))
    {deepest outer : Mark Attribute} (hdeepest : IsDeepest marks i deepest)
    (houter : IsOutermost marks i deepest.range outer) :
    (styleAt (byWidth (spansOf marks)) i).foreground = outer.foreground := by
  have hrange : outer.range = deepest.range := houter.2.1
  -- The widths of the spans that set a color go down to that of the deepest mark.
  have hleast : ∀ span ∈ byWidth (spansOf marks), (colorAt i span).isSome = true →
      outer.range.size ≤ span.range.size := by
    intro span hspan hset
    obtain ⟨other, hother, hsame⟩ := exists_mem_settersAt ((byWidth_perm _).mem_iff.1 hspan) hset
    have := within_of_deepest hunder hdeepest hother
    simp only [ByteRange.size, hrange, hsame]
    omega
  have hmem : ∃ span ∈ byWidth (spansOf marks), (colorAt i span).isSome = true ∧
      span.range.size = outer.range.size := by
    obtain ⟨span, hspan, hsame, hset⟩ := exists_mem_spansOf houter.1
    exact ⟨span, (byWidth_perm _).mem_iff.2 hspan, hset, by rw [hsame]⟩
  rw [foreground_styleAt, getLast?_filterMap_of_pairwise (pairwise_byWidth _) hleast hmem,
    filter_byWidth]
  exact getLast?_colorAt_of_isOutermost hunder (hrange ▸ houter)

/-! ### Documents -/

/-- The marks of a document: of two that set a color at a byte, the first one is deeper and within
the second one. -/
theorem pairwise_under_of_parse {theme : Theme} {source : String}
    {forest : List (Node Theme Attribute)} (h : (parse theme source).value = .ok forest)
    (context : Theme) (depth start : Nat) :
    (Forest.marks context depth start forest).Pairwise (Mark.Under SetsForeground) := by
  refine (Forest.pairwise_under depth start fun node hnode => ?_).2
  rcases listItem_of_parse h node hnode with hitem | hitem
  · cases hkind : node.kind <;> simp [hkind, Kind.isListItem] at hitem <;> trivial
  · rw [hitem]
    simp [Kind.SparesFirstChars, SetsForeground, bullet, themed, Attribute.foreground]

/-- In the colors of every theme, every document is shown character by character, and each character
is in the color of the deepest node that sets it, unless nodes above that node style the same bytes
and set a color as well: then it is in the color of the outermost of these. -/
theorem foreground_shown (theme context : Theme) (source : String) :
    ∃ forest style, (parse theme source).value = .ok forest ∧
      shown (toLines (Forest.renderText context forest)) =
        painted (bulletChars (byWidth (Forest.renderText context forest).spans.toList)) style 0
          (Forest.renderText context forest).text.toList ∧
      ∀ i deepest outer, IsDeepest (Forest.marks context 0 0 forest) i deepest →
        IsOutermost (Forest.marks context 0 0 forest) i deepest.range outer →
        (style i).foreground = outer.foreground := by
  have htext : Inline.textRule ∈ rules theme := by simp [rules, Inline.rules]
  obtain ⟨forest, hvalue, -⟩ := parse_accounts (accounts_of_mem_rules theme)
    (Inline.catches_of_mem htext) source {}
  refine ⟨forest, styleAt (byWidth (Forest.renderText context forest).spans.toList), hvalue,
    shown_toLines _ (bounded_byWidth context forest), fun i deepest outer hdeepest houter => ?_⟩
  rw [Forest.spans_renderText context 0]
  exact foreground_styleAt_byWidth (pairwise_under_of_parse hvalue context 0 0) hdeepest houter

/-- In a code block that is a single keyword, the node of the block styles the same bytes as the
node of the keyword below it, in another color. -/
theorem exists_keyword_block :
    ∃ forest : List (Node Theme Attribute), (parse {} "```kt\nval\n```").value = .ok forest ∧
      (Forest.renderText {} forest).text = "val" ∧
      ∃ deepest ∈ Forest.marks {} 0 0 forest, ∃ outer ∈ Forest.marks {} 0 0 forest,
        IsDeepest (Forest.marks {} 0 0 forest) 0 deepest ∧
        IsOutermost (Forest.marks {} 0 0 forest) 0 deepest.range outer ∧
        outer.depth < deepest.depth ∧ outer.foreground ≠ deepest.foreground := by
  have hforest : (match (parse {} "```kt\nval\n```").value with
      | .ok forest => decide ((Forest.renderText {} forest).text = "val" ∧
        ∃ deepest ∈ Forest.marks ({} : Theme) 0 0 forest,
          ∃ outer ∈ Forest.marks ({} : Theme) 0 0 forest,
          IsDeepest (Forest.marks ({} : Theme) 0 0 forest) 0 deepest ∧
          IsOutermost (Forest.marks ({} : Theme) 0 0 forest) 0 deepest.range outer ∧
          outer.depth < deepest.depth ∧ outer.foreground ≠ deepest.foreground)
      | .error _ => false) = true := by
    simp only [parse, rules, Code.blockRule, Code.startsOnNewLine_eq]
    decide +kernel
  cases hvalue : (parse {} "```kt\nval\n```").value with
  | error error =>
    rw [hvalue] at hforest
    cases hforest
  | ok forest =>
    rw [hvalue] at hforest
    exact ⟨forest, rfl, of_decide_eq_true hforest⟩

/-- A character is not always in the color of the deepest of several nodes that set it. -/
theorem not_foreground_of_deepest :
    ¬ ∀ (theme : Theme) (source : String) (forest : List (Node Theme Attribute)),
      (parse theme source).value = .ok forest →
      ∀ style, shown (toLines (Forest.renderText theme forest)) =
        painted (bulletChars (byWidth (Forest.renderText theme forest).spans.toList)) style 0
          (Forest.renderText theme forest).text.toList →
      ∀ before c after, (Forest.renderText theme forest).text.toList = before ++ c :: after →
        c ≠ '\n' →
        ∀ deepest, IsDeepest (Forest.marks theme 0 0 forest) (byteSize before) deepest →
          ∀ upper ∈ settersAt (Forest.marks theme 0 0 forest) (byteSize before),
            upper.depth < deepest.depth →
            (style (byteSize before)).foreground = deepest.foreground := by
  intro h
  obtain ⟨forest, hvalue, htext, deepest, -, outer, -, hdeepest, houter, habove, hne⟩ :=
    exists_keyword_block
  have hcolor := foreground_styleAt_byWidth (pairwise_under_of_parse hvalue {} 0 0) hdeepest houter
  have hclaim := h {} _ forest hvalue _ (shown_toLines _ (bounded_byWidth {} forest)) [] 'v'
    ['a', 'l'] (by rw [htext]; decide) (by decide) deepest hdeepest outer houter.1 habove
  rw [byteSize_nil, Forest.spans_renderText ({} : Theme) 0, hcolor] at hclaim
  exact hne hclaim

end Viewer

end RuledMarkup
