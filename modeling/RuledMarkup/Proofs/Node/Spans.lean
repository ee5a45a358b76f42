import Mathlib.Tactic.Convert
import RuledMarkup.Proofs.Node.Marks

/-!
# Ranges of marks

The marks of a forest stand within the text that is rendered for it, begin and end between
characters, and two of them are disjoint or one holds the other.  This is so for each piece of the
text, and it stays so when pieces are put in a row and when a mark is put over a whole piece or its
first character.

## Main definitions

* `ByteRange.Nests` : two ranges are disjoint, or one holds the other.
* `Fits` : marks whose ranges are slices of a text and nest.
* `Node.renderWith`, `Forest.renderWith` : rendering with another way to attach styles.

## Main results

* `Forest.fits_marks` : the marks of a forest fit the text that is rendered for it.
* `Forest.renderWith_eq` : any way to attach styles that agrees on the ranges within the text gives
  the same.
-/

namespace RuledMarkup

open Text

/-! ### Ranges that nest -/

namespace Text

/-- Two ranges have no byte in common, or one of them holds the other. -/
def ByteRange.Nests (a b : ByteRange) : Prop :=
  a.stop ≤ b.start ∨ b.stop ≤ a.start ∨
    (a.start ≤ b.start ∧ b.stop ≤ a.stop) ∨ (b.start ≤ a.start ∧ a.stop ≤ b.stop)

theorem ByteRange.Nests.shift {a b : ByteRange} (h : a.Nests b) (n : Nat) :
    (a.shift n).Nests (b.shift n) := by
  simp only [Nests, ByteRange.shift] at *
  omega

theorem ByteRange.nests_self (a : ByteRange) : a.Nests a := by
  simp [Nests]

theorem isBoundary_append_left {a : String} {i : Nat} (h : isBoundary a i = true) (b : String) :
    isBoundary (a ++ b) i = true := by
  obtain ⟨c, d, rfl, hc⟩ := isBoundary_iff.1 h
  exact isBoundary_iff.2 ⟨c, d ++ b, String.append_assoc, hc⟩

theorem isBoundary_append_right {b : String} {i : Nat} (h : isBoundary b i = true) (a : String) :
    isBoundary (a ++ b) (i + a.utf8ByteSize) = true := by
  obtain ⟨c, d, rfl, rfl⟩ := isBoundary_iff.1 h
  exact isBoundary_iff.2 ⟨a ++ c, d, String.append_assoc.symm, by
    rw [String.utf8ByteSize_append, Nat.add_comm]⟩

/-- No boundary stands within the first character of a text. -/
theorem isBoundary_firstChar {text : String} {i : Nat} (h : isBoundary text i = true) :
    i = 0 ∨ firstCharWidth text ≤ i := by
  obtain ⟨a, b, rfl, rfl⟩ := isBoundary_iff.1 h
  rw [firstCharWidth, String.toList_append, ← byteSize_toList]
  cases a.toList <;> simp

theorem isBoundary_firstCharWidth (text : String) :
    isBoundary text (firstCharWidth text) = true := by
  rw [isBoundary_iff, firstCharWidth]
  cases h : text.toList with
  | nil => exact ⟨"", text, by simp, by simp⟩
  | cons c cs =>
    refine ⟨String.ofList [c], String.ofList cs, ?_, byteSize_cons c [] |>.trans (by simp)⟩
    rw [← String.ofList_append, List.singleton_append, ← h, String.ofList_toList]

end Text

variable {R T : Type}

/-! ### Marks that fit a text -/

/-- Marks fit a text if their ranges are slices of it, and any two of them are disjoint or one holds
the other. -/
structure Fits (text : String) (marks : List (Mark T)) : Prop where
  ordered : ∀ mark ∈ marks, mark.range.start ≤ mark.range.stop
  starts : ∀ mark ∈ marks, isBoundary text mark.range.start = true
  stops : ∀ mark ∈ marks, isBoundary text mark.range.stop = true
  nests : marks.Pairwise fun a b => a.range.Nests b.range

namespace Fits

variable {text other : String} {marks more : List (Mark T)}

theorem nil (text : String) : Fits text ([] : List (Mark T)) :=
  ⟨by simp, by simp, by simp, .nil⟩

theorem stop_le (h : Fits text marks) {mark : Mark T} (hmark : mark ∈ marks) :
    mark.range.stop ≤ text.utf8ByteSize :=
  le_of_isBoundary (h.stops mark hmark)

/-- Marks that are moved up stay within the text that is moved up. -/
theorem range_of_mem_shift (h : Fits text marks) {n : Nat} {mark : Mark T}
    (hmark : mark ∈ marks.map (Mark.shift n)) :
    n ≤ mark.range.start ∧ mark.range.start ≤ mark.range.stop ∧
      mark.range.stop ≤ n + text.utf8ByteSize := by
  obtain ⟨old, hold, rfl⟩ := List.mem_map.1 hmark
  have hle := h.stop_le hold
  have hordered := h.ordered old hold
  simp only [Mark.shift, ByteRange.shift]
  omega

/-- The marks of two texts in a row: those of the second text begin behind the first one. -/
theorem append (h : Fits text marks) (hmore : Fits other more) :
    Fits (text ++ other) (marks ++ more.map (Mark.shift text.utf8ByteSize)) where
  ordered := by
    simp only [List.forall_mem_append, List.forall_mem_map]
    exact ⟨h.ordered, fun mark hmark => Nat.add_le_add_right (hmore.ordered mark hmark) _⟩
  starts := by
    simp only [List.forall_mem_append, List.forall_mem_map]
    exact ⟨fun mark hmark => isBoundary_append_left (h.starts mark hmark) other,
      fun mark hmark => isBoundary_append_right (hmore.starts mark hmark) text⟩
  stops := by
    simp only [List.forall_mem_append, List.forall_mem_map]
    exact ⟨fun mark hmark => isBoundary_append_left (h.stops mark hmark) other,
      fun mark hmark => isBoundary_append_right (hmore.stops mark hmark) text⟩
  nests := by
    refine List.pairwise_append.2 ⟨h.nests, ?_, ?_⟩
    · exact List.pairwise_map.2 (hmore.nests.imp fun hab => hab.shift _)
    · intro a ha b hb
      obtain ⟨b, -, rfl⟩ := List.mem_map.1 hb
      exact .inl (Nat.le_trans (h.stop_le ha) (Nat.le_add_left ..))

/-- A mark over the whole text holds every other one. -/
theorem around (h : Fits text marks) (depth : Nat) (styles : List T) :
    Fits text (marks ++ [⟨depth, ⟨0, text.utf8ByteSize⟩, styles⟩]) where
  ordered := by simpa [or_imp, forall_and] using h.ordered
  starts := by simpa [or_imp, forall_and, isBoundary_zero] using h.starts
  stops := by simpa [or_imp, forall_and, isBoundary_utf8ByteSize] using h.stops
  nests := by
    refine List.pairwise_append.2 ⟨h.nests, List.pairwise_singleton .., ?_⟩
    rintro a ha b hb
    rw [List.mem_singleton.1 hb]
    exact .inr (.inr (.inr ⟨Nat.zero_le _, h.stop_le ha⟩))

/-- A mark over a whole text. -/
theorem whole (text : String) (depth : Nat) (styles : List T) :
    Fits text [⟨depth, ⟨0, text.utf8ByteSize⟩, styles⟩] :=
  (nil text).around depth styles

/-- A mark over the first character of the text is disjoint from the marks that begin further on,
and held by the others that have a character. -/
theorem overFirstChar (h : Fits text marks) (depth : Nat) (styles : List T) :
    Fits text (marks ++ [⟨depth, ⟨0, firstCharWidth text⟩, styles⟩]) where
  ordered := by simpa [or_imp, forall_and] using h.ordered
  starts := by simpa [or_imp, forall_and, isBoundary_zero] using h.starts
  stops := by simpa [or_imp, forall_and, isBoundary_firstCharWidth] using h.stops
  nests := by
    refine List.pairwise_append.2 ⟨h.nests, List.pairwise_singleton .., ?_⟩
    rintro a ha b hb
    rw [List.mem_singleton.1 hb]
    have hstart := isBoundary_firstChar (h.starts a ha)
    have hstop := isBoundary_firstChar (h.stops a ha)
    simp only [ByteRange.Nests]
    omega

end Fits

/-! ### The marks of a forest -/

theorem fits_openingMarks (depth : Nat) (opening : String) (name attributes : List T) :
    Fits ("<" ++ opening ++ ">") (openingMarks depth 0 opening name attributes) := by
  have h := ((Fits.whole ("<" ++ (tagParts opening).1) depth name).append
    (Fits.whole (tagParts opening).2 depth attributes)).append (Fits.whole ">" depth name)
  have hopening : "<" ++ opening = "<" ++ (tagParts opening).1 ++ (tagParts opening).2 := by
    rw [String.append_assoc, tagParts_append]
  rw [hopening]
  convert h using 1
  simp [openingMarks, Mark.shift, ByteRange.shift, utf8ByteSize_brackets, Nat.add_comm]

theorem fits_closingMarks (depth : Nat) (closing : Option String) (name : List T) :
    Fits (match closing with
      | none => ""
      | some closing => if closing.isEmpty then "" else "</" ++ closing ++ ">")
      (closingMarks depth 0 closing name) := by
  cases closing with
  | none => exact .nil _
  | some closing =>
    simp only [closingMarks]
    split_ifs
    · exact .nil _
    · have h := (Fits.nil (T := T) "<").append (Fits.whole ("/" ++ closing ++ ">") depth name)
      have hslash : "<" ++ "/" = "</" := by decide
      rw [← String.append_assoc, ← String.append_assoc, hslash] at h
      convert h using 1
      simp [Mark.shift, ByteRange.shift, utf8ByteSize_brackets]
      omega

mutual

/-- The marks of a tree fit the text that is rendered for it. -/
theorem Node.fits_marks (ctx : R) (depth : Nat) (node : Node R T) :
    Fits (node.renderedText ctx) (node.marks ctx depth 0) := by
  obtain ⟨kind, children⟩ := node
  have hchildren := Forest.fits_marks ctx (depth + 1) children
  have hbehind (content : String) : Fits (content ++ Forest.renderedText ctx children)
      (Forest.marks ctx (depth + 1) (0 + content.utf8ByteSize) children) := by
    rw [Forest.marks_shift]
    exact (Fits.nil content).append hchildren
  cases kind with
  | parent | definition | function | field => exact hchildren
  | text content =>
    simpa [Node.renderedText, Node.render, Forest.text_render, Node.marks] using hbehind content
  | mention => exact .nil _
  | style | inlineCode =>
    simpa [Node.renderedText, Node.render, Forest.text_render, Node.marks, Forest.width] using
      hchildren.around depth _
  | styledText content =>
    simpa [Node.renderedText, Node.render, Forest.text_render, Node.marks, Forest.width] using
      (hbehind content).around depth _
  | listItem bullet =>
    simpa [Node.renderedText, Node.render, Forest.text_render, Node.marks, Forest.width] using
      hchildren.overFirstChar depth _
  | code language body styles =>
    cases children with
    | nil =>
      simpa [Node.renderedText, Node.render, Node.marks, Forest.marks] using
        Fits.whole body depth _
    | cons child children =>
      simpa [Node.renderedText, Node.render, Forest.text_render, Node.marks, Forest.width] using
        hchildren.around depth _
  | tag opening closing name attributes =>
    have h := ((fits_openingMarks depth opening (name.styles ctx) (attributes.styles ctx)).append
      hchildren).append (fits_closingMarks depth closing (name.styles ctx))
    have hopening : ("<" ++ opening ++ ">").utf8ByteSize = opening.utf8ByteSize + 2 := by
      simp only [String.utf8ByteSize_append, utf8ByteSize_brackets]
      omega
    rw [← Forest.marks_shift, ← closingMarks_shift, hopening, String.utf8ByteSize_append, hopening,
      ← Nat.add_assoc, ← Nat.add_assoc] at h
    rw [Node.renderedText_tag, Node.marks]
    exact h

/-- The marks of a forest fit the text that is rendered for it. -/
theorem Forest.fits_marks (ctx : R) (depth : Nat) (forest : List (Node R T)) :
    Fits (Forest.renderedText ctx forest) (Forest.marks ctx depth 0 forest) := by
  cases forest with
  | nil => exact .nil _
  | cons node forest =>
    rw [Forest.renderedText_cons, Forest.marks, Forest.marks_shift]
    exact (Node.fits_marks ctx depth node).append (Forest.fits_marks ctx depth forest)

end

/-! ### Rendering with another way to attach styles -/

mutual

/-- Renders a tree at the end of a styled text, where styles are attached by `attach`. -/
def Node.renderWith (attach : StyledText T → List T → ByteRange → StyledText T) (ctx : R) :
    Node R T → StyledText T → StyledText T
  | .mk kind children, out =>
    let start := out.size
    match kind with
    | .parent => Forest.renderWith attach ctx children out
    | .text content => Forest.renderWith attach ctx children (out.push content)
    | .style styles =>
      let out := Forest.renderWith attach ctx children out
      attach out styles ⟨start, out.size⟩
    | .styledText content provider =>
      let out := Forest.renderWith attach ctx children (out.push content)
      attach out (provider.styles ctx) ⟨start, out.size⟩
    | .code _ body styles =>
      let out :=
        if children.isEmpty then out.push body else Forest.renderWith attach ctx children out
      attach out (styles.styles ctx) ⟨start, out.size⟩
    | .inlineCode background =>
      let out := Forest.renderWith attach ctx children out
      attach out (background.styles ctx) ⟨start, out.size⟩
    | .definition => Forest.renderWith attach ctx children out
    | .function => Forest.renderWith attach ctx children out
    | .field => Forest.renderWith attach ctx children out
    | .tag opening closing name attributes =>
      let (tagName, remainder) := tagParts opening
      let nameStyles := name.styles ctx
      let out := (out.push "<").push tagName
      let nameEnd := out.size
      let out := attach out nameStyles ⟨start, nameEnd⟩
      let out := out.push remainder
      let bracket := out.size
      let out := out.push ">"
      let out := attach out (attributes.styles ctx) ⟨nameEnd, bracket⟩
      let out := attach out nameStyles ⟨bracket, out.size⟩
      let out := Forest.renderWith attach ctx children out
      match closing with
      | none => out
      | some closing =>
        if closing.isEmpty then out
        else
          let closingStart := out.size
          let out := ((out.push "</").push closing).push ">"
          attach out nameStyles ⟨closingStart + 1, out.size⟩
    | .listItem bullet =>
      let out := Forest.renderWith attach ctx children out
      attach out (bullet.styles ctx) ⟨start, firstCharEnd out.text start⟩
    | .mention _ resolve => out.push ((resolve ctx).getD "Invalid User")

/-- Renders the trees of a forest, where styles are attached by `attach`. -/
def Forest.renderWith (attach : StyledText T → List T → ByteRange → StyledText T) (ctx : R) :
    List (Node R T) → StyledText T → StyledText T
  | [], out => out
  | node :: forest, out => Forest.renderWith attach ctx forest (node.renderWith attach ctx out)

end

namespace StyledText

/-- Attaches a style to a range as it is given, also where it leaves the text. -/
def setStyleUnclamped (s : StyledText T) (style : T) (range : ByteRange) : StyledText T :=
  { s with spans := s.spans.push ⟨style, range⟩ }

/-- Attaches several styles to one range as it is given. -/
def setStylesUnclamped (s : StyledText T) (styles : List T) (range : ByteRange) : StyledText T :=
  styles.foldl (fun s style => s.setStyleUnclamped style range) s

/-- Within the text, styles are attached to the range that is given. -/
theorem setStylesUnclamped_eq (s : StyledText T) (styles : List T) (range : ByteRange)
    (h : range.start ≤ range.stop) (hs : range.stop ≤ s.size) :
    s.setStylesUnclamped styles range = s.setStyles styles range := by
  induction styles generalizing s with
  | nil => rfl
  | cons style styles ih =>
    have hone : s.setStyleUnclamped style range = s.setStyle style range := by
      rw [setStyle, Nat.min_eq_left hs, Nat.min_eq_left h]
      rfl
    rw [setStylesUnclamped, setStyles, List.foldl_cons, List.foldl_cons, hone]
    exact ih _ hs

end StyledText

/-- Within the text, `attach` attaches styles to the range that is given. -/
def AttachesWithin (attach : StyledText T → List T → ByteRange → StyledText T) : Prop :=
  ∀ (s : StyledText T) (styles : List T) (range : ByteRange),
    range.start ≤ range.stop → range.stop ≤ s.size →
      attach s styles range = s.setStyles styles range

mutual

/-- Every range to which a tree attaches styles lies within the text. -/
theorem Node.renderWith_eq {attach : StyledText T → List T → ByteRange → StyledText T}
    (hattach : AttachesWithin attach) (ctx : R) (node : Node R T) (out : StyledText T) :
    node.renderWith attach ctx out = node.render ctx out := by
  obtain ⟨kind, children⟩ := node
  have hchildren := Forest.renderWith_eq hattach ctx children
  cases kind with
  | listItem bullet =>
    have hle := firstCharWidth_le (Forest.renderedText ctx children)
    rw [Node.renderWith, Node.render, hchildren, Forest.firstCharEnd_render]
    exact hattach _ _ _ (Nat.le_add_right ..) (by simpa [Forest.width] using hle)
  | code =>
    simp only [Node.renderWith, Node.render]
    split_ifs
    · exact hattach _ _ _ (by simp) (by simp)
    · rw [hchildren]
      exact hattach _ _ _ (by simp) (by simp)
  | tag opening closing =>
    cases closing <;>
      simp (disch := simp [utf8ByteSize_brackets] <;> omega) only
        [Node.renderWith, Node.render, hchildren, hattach _]
  | _ =>
    simp (disch := simp <;> omega) only [Node.renderWith, Node.render, hchildren, hattach _]

/-- Every range to which a forest attaches styles lies within the text. -/
theorem Forest.renderWith_eq {attach : StyledText T → List T → ByteRange → StyledText T}
    (hattach : AttachesWithin attach) (ctx : R) (forest : List (Node R T)) (out : StyledText T) :
    Forest.renderWith attach ctx forest out = Forest.render ctx forest out := by
  cases forest with
  | nil => rfl
  | cons node forest =>
    rw [Forest.renderWith, Forest.render, Forest.renderWith_eq hattach ctx forest,
      Node.renderWith_eq hattach ctx node]

end

/-! ### The spans that are attached -/

theorem mem_spansOf {marks : List (Mark T)} {span : StyleSpan T} :
    span ∈ spansOf marks ↔ ∃ mark ∈ marks, span.range = mark.range ∧ span.style ∈ mark.styles := by
  simp only [spansOf, Mark.spans, List.mem_flatMap, List.mem_map]
  constructor
  · rintro ⟨mark, hmark, style, hstyle, rfl⟩
    exact ⟨mark, hmark, rfl, hstyle⟩
  · rintro ⟨mark, hmark, hrange, hstyle⟩
    exact ⟨mark, hmark, span.style, hstyle, by rw [← hrange]⟩

/-- The spans of marks that fit a text nest. -/
theorem Fits.nests_spansOf {text : String} {marks : List (Mark T)} (h : Fits text marks) :
    (spansOf marks).Pairwise fun a b => a.range.Nests b.range := by
  refine List.pairwise_flatMap.2 ⟨fun mark _ => ?_, h.nests.imp fun hab => ?_⟩
  · exact List.pairwise_map.2 (List.pairwise_of_forall fun _ _ => ByteRange.nests_self _)
  · simp only [Mark.spans, List.forall_mem_map]
    exact fun _ _ _ _ => hab

/-- A mark of a tree stands within the text of the tree. -/
theorem Node.range_of_mem_marks {ctx : R} {depth start : Nat} {node : Node R T} {mark : Mark T}
    (h : mark ∈ node.marks ctx depth start) :
    start ≤ mark.range.start ∧ mark.range.start ≤ mark.range.stop ∧
      mark.range.stop ≤ start + node.width ctx := by
  rw [← Nat.zero_add start, Node.marks_shift] at h
  exact (Node.fits_marks ctx depth node).range_of_mem_shift h

namespace Forest

/-- The marks of a forest that is rendered behind something else. -/
theorem fits_marks_behind (ctx : R) (depth : Nat) (forest : List (Node R T))
    (out : StyledText T) :
    Fits (render ctx forest out).text (marks ctx depth out.size forest) := by
  have h := (Fits.nil (T := T) out.text).append (fits_marks ctx depth forest)
  rw [← marks_shift, Nat.zero_add] at h
  rw [text_render]
  exact h

/-- A mark of a forest stands within the text of the forest. -/
theorem range_of_mem_marks {ctx : R} {depth start : Nat} {forest : List (Node R T)}
    {mark : Mark T} (h : mark ∈ marks ctx depth start forest) :
    start ≤ mark.range.start ∧ mark.range.start ≤ mark.range.stop ∧
      mark.range.stop ≤ start + width ctx forest := by
  rw [← Nat.zero_add start, marks_shift] at h
  exact (fits_marks ctx depth forest).range_of_mem_shift h

end Forest

end RuledMarkup
