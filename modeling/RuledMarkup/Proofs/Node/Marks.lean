import RuledMarkup.Proofs.Node.Text
import RuledMarkup.Proofs.Text.Windows

/-!
# The marks of a forest

A tree marks ranges of the text that is rendered for it: it attaches its own styles to all of that
text, to its first character or to the pieces of a tag.  Where a mark stands depends on the place at
which the text begins only by the distance, and it does not depend on what stands before.

## Main definitions

* `Mark` : styles that one node attaches to one range, and the depth of the node.
* `Node.marks`, `Forest.marks` : the marks of a tree or a forest whose text begins at a byte, in the
  order in which the styles are attached.

## Main results

* `Node.spans_render`, `Forest.spans_render` : rendering attaches the styles of the marks.
* `Forest.marks_shift` : the marks of a text that begins further on.
* `Forest.render_append` : what is rendered for two forests in a row.
-/

namespace RuledMarkup

open Text

variable {R T : Type}

/-! ### Styles over ranges -/

/-- The span moved up by `n` bytes. -/
def StyleSpan.shift (n : Nat) (span : StyleSpan T) : StyleSpan T :=
  { span with range := span.range.shift n }

namespace StyledText

@[simp] theorem size_push (s : StyledText T) (more : String) :
    (s.push more).size = s.size + more.utf8ByteSize :=
  String.utf8ByteSize_append ..

@[simp] theorem size_setStyles (s : StyledText T) (styles : List T) (range : ByteRange) :
    (s.setStyles styles range).size = s.size :=
  congrArg String.utf8ByteSize (text_setStyles s styles range)

/-- Styles attached to a range within the text are attached as they are. -/
theorem spans_setStyles {s : StyledText T} {range : ByteRange} (styles : List T)
    (h : range.start ≤ range.stop) (hs : range.stop ≤ s.size) :
    (s.setStyles styles range).spans.toList =
      s.spans.toList ++ styles.map fun style => ⟨style, range⟩ := by
  induction styles generalizing s with
  | nil => simp [setStyles]
  | cons style styles ih =>
    have htail : ((s.setStyle style range).setStyles styles range).spans.toList = _ := ih hs
    rw [setStyles, List.foldl_cons]
    rw [setStyles, spans_setStyle h hs] at htail
    simpa using htail

end StyledText

/-! ### Widths -/

/-- The number of bytes that are rendered for a tree. -/
def Node.width (ctx : R) (node : Node R T) : Nat := (node.renderedText ctx).utf8ByteSize

/-- The number of bytes that are rendered for a forest. -/
def Forest.width (ctx : R) (forest : List (Node R T)) : Nat :=
  (Forest.renderedText ctx forest).utf8ByteSize

theorem Node.size_render (ctx : R) (node : Node R T) (out : StyledText T) :
    (node.render ctx out).size = out.size + node.width ctx := by
  rw [StyledText.size, Node.text_render, String.utf8ByteSize_append]
  rfl

@[simp] theorem Forest.size_render (ctx : R) (forest : List (Node R T)) (out : StyledText T) :
    (Forest.render ctx forest out).size = out.size + Forest.width ctx forest := by
  rw [StyledText.size, Forest.text_render, String.utf8ByteSize_append]
  rfl

/-- The number of bytes of the first character of a text, none if there is no character. -/
def firstCharWidth (text : String) : Nat :=
  match text.toList with
  | [] => 0
  | c :: _ => c.utf8Size

/-- The first character of a text that has been added is found behind what stood before. -/
theorem firstCharEnd_append (a b : String) :
    firstCharEnd (a ++ b) a.utf8ByteSize = a.utf8ByteSize + firstCharWidth b := by
  rw [firstCharEnd, slice_of_slice? (slice?_append_right a b), firstCharWidth]
  cases b.toList <;> rfl

theorem Forest.firstCharEnd_render (ctx : R) (forest : List (Node R T)) (out : StyledText T) :
    firstCharEnd (Forest.render ctx forest out).text out.size =
      out.size + firstCharWidth (Forest.renderedText ctx forest) := by
  rw [Forest.text_render]
  exact firstCharEnd_append ..

theorem firstCharWidth_le (text : String) : firstCharWidth text ≤ text.utf8ByteSize := by
  rw [← byteSize_toList, firstCharWidth]
  cases text.toList <;> simp

/-! ### Marks -/

/-- The styles that one node attaches to one range, and the depth of the node in its forest. -/
structure Mark (T : Type) where
  depth : Nat
  range : ByteRange
  styles : List T
deriving DecidableEq

namespace Mark

/-- The spans that are attached for a mark. -/
def spans (mark : Mark T) : List (StyleSpan T) := mark.styles.map fun style => ⟨style, mark.range⟩

/-- The mark moved up by `n` bytes. -/
def shift (n : Nat) (mark : Mark T) : Mark T := { mark with range := mark.range.shift n }

theorem spans_shift (n : Nat) (mark : Mark T) :
    (mark.shift n).spans = mark.spans.map (StyleSpan.shift n) := by
  simp [spans, shift, StyleSpan.shift, Function.comp_def]

end Mark

/-- The spans that are attached for marks, in order. -/
def spansOf (marks : List (Mark T)) : List (StyleSpan T) := marks.flatMap Mark.spans

@[simp] theorem spansOf_nil : spansOf ([] : List (Mark T)) = [] := rfl

@[simp] theorem spansOf_cons (mark : Mark T) (marks : List (Mark T)) :
    spansOf (mark :: marks) = mark.spans ++ spansOf marks := rfl

@[simp] theorem spansOf_append (a b : List (Mark T)) : spansOf (a ++ b) = spansOf a ++ spansOf b :=
  List.flatMap_append

/-! ### Tags -/

/-- The sizes of the brackets around a tag. -/
theorem utf8ByteSize_brackets :
    "<".utf8ByteSize = 1 ∧ "</".utf8ByteSize = 2 ∧ "/".utf8ByteSize = 1 ∧ ">".utf8ByteSize = 1 :=
  ⟨rfl, rfl, rfl, rfl⟩

theorem utf8ByteSize_tagParts (opening : String) :
    (tagParts opening).1.utf8ByteSize + (tagParts opening).2.utf8ByteSize =
      opening.utf8ByteSize := by
  rw [← String.utf8ByteSize_append, tagParts_append]

/-- The marks of the opening brackets of a tag: its name with the bracket before it, what follows
the name, and the bracket at the end. -/
def openingMarks (depth start : Nat) (opening : String) (name attributes : List T) :
    List (Mark T) :=
  let nameEnd := start + 1 + (tagParts opening).1.utf8ByteSize
  let bracket := nameEnd + (tagParts opening).2.utf8ByteSize
  [⟨depth, ⟨start, nameEnd⟩, name⟩, ⟨depth, ⟨nameEnd, bracket⟩, attributes⟩,
    ⟨depth, ⟨bracket, bracket + 1⟩, name⟩]

/-- The mark of the closing brackets of a tag, from the slash on. -/
def closingMarks (depth start : Nat) (closing : Option String) (name : List T) : List (Mark T) :=
  match closing with
  | none => []
  | some closing =>
    if closing.isEmpty then []
    else [⟨depth, ⟨start + 1, start + closing.utf8ByteSize + 3⟩, name⟩]

/-- The opening brackets of a tag at the end of a styled text. -/
def StyledText.openTag (s : StyledText T) (opening : String) (name attributes : List T) :
    StyledText T :=
  let start := s.size
  let (tagName, remainder) := tagParts opening
  let s := (s.push "<").push tagName
  let nameEnd := s.size
  let s := s.setStyles name ⟨start, nameEnd⟩
  let s := s.push remainder
  let bracket := s.size
  let s := s.push ">"
  let s := s.setStyles attributes ⟨nameEnd, bracket⟩
  s.setStyles name ⟨bracket, s.size⟩

/-- The closing brackets of a tag at the end of a styled text. -/
def StyledText.closeTag (s : StyledText T) (closing : Option String) (name : List T) :
    StyledText T :=
  match closing with
  | none => s
  | some closing =>
    if closing.isEmpty then s
    else
      let start := s.size
      let s := ((s.push "</").push closing).push ">"
      s.setStyles name ⟨start + 1, s.size⟩

theorem StyledText.size_openTag (s : StyledText T) (opening : String) (name attributes : List T) :
    (s.openTag opening name attributes).size = s.size + opening.utf8ByteSize + 2 := by
  have hopening := utf8ByteSize_tagParts opening
  simp only [openTag, size_setStyles, size_push, utf8ByteSize_brackets]
  omega

theorem StyledText.spans_openTag (s : StyledText T) (depth : Nat) (opening : String)
    (name attributes : List T) :
    (s.openTag opening name attributes).spans.toList =
      s.spans.toList ++ spansOf (openingMarks depth s.size opening name attributes) := by
  simp only [openTag]
  rw [spans_setStyles _ (by simp) (by simp), spans_setStyles _ (by simp) (by simp), spans_push,
    spans_push, spans_setStyles _ (by simp; omega) (by simp)]
  simp [openingMarks, Mark.spans, utf8ByteSize_brackets]

theorem StyledText.spans_closeTag (s : StyledText T) (depth : Nat) (closing : Option String)
    (name : List T) :
    (s.closeTag closing name).spans.toList =
      s.spans.toList ++ spansOf (closingMarks depth s.size closing name) := by
  cases closing with
  | none => simp [closeTag, closingMarks]
  | some closing =>
    simp only [closeTag, closingMarks]
    split_ifs
    · simp
    · rw [spans_setStyles _ (by simp [utf8ByteSize_brackets]; omega) (by simp)]
      simp [Mark.spans, utf8ByteSize_brackets, Nat.add_right_comm]

/-! ### The marks of a forest -/

mutual

/-- The marks of a tree whose root is at depth `depth` and whose text begins at byte `start`: those
of the nodes below come before those around them. -/
def Node.marks (ctx : R) (depth start : Nat) : Node R T → List (Mark T)
  | .mk kind children =>
    match kind with
    | .parent | .definition | .function | .field => Forest.marks ctx (depth + 1) start children
    | .text content => Forest.marks ctx (depth + 1) (start + content.utf8ByteSize) children
    | .style styles =>
      Forest.marks ctx (depth + 1) start children ++
        [⟨depth, ⟨start, start + Forest.width ctx children⟩, styles⟩]
    | .styledText content provider =>
      Forest.marks ctx (depth + 1) (start + content.utf8ByteSize) children ++
        [⟨depth, ⟨start, start + (content.utf8ByteSize + Forest.width ctx children)⟩,
          provider.styles ctx⟩]
    | .code _ body styles =>
      let width := if children.isEmpty then body.utf8ByteSize else Forest.width ctx children
      Forest.marks ctx (depth + 1) start children ++
        [⟨depth, ⟨start, start + width⟩, styles.styles ctx⟩]
    | .inlineCode background =>
      Forest.marks ctx (depth + 1) start children ++
        [⟨depth, ⟨start, start + Forest.width ctx children⟩, background.styles ctx⟩]
    | .tag opening closing name attributes =>
      let inner := start + opening.utf8ByteSize + 2
      openingMarks depth start opening (name.styles ctx) (attributes.styles ctx) ++
        Forest.marks ctx (depth + 1) inner children ++
        closingMarks depth (inner + Forest.width ctx children) closing (name.styles ctx)
    | .listItem bullet =>
      Forest.marks ctx (depth + 1) start children ++
        [⟨depth, ⟨start, start + firstCharWidth (Forest.renderedText ctx children)⟩,
          bullet.styles ctx⟩]
    | .mention _ _ => []

/-- The marks of a forest whose roots are at depth `depth` and whose text begins at byte `start`,
tree by tree. -/
def Forest.marks (ctx : R) (depth start : Nat) : List (Node R T) → List (Mark T)
  | [] => []
  | node :: forest =>
    node.marks ctx depth start ++ Forest.marks ctx depth (start + node.width ctx) forest

end

/-! ### Rendering attaches the marks -/

theorem Node.render_tag (ctx : R) (opening : String) (closing : Option String)
    (name attributes : StyleProvider R T) (children : List (Node R T)) (out : StyledText T) :
    (mk (.tag opening closing name attributes) children : Node R T).render ctx out =
      (Forest.render ctx children
        (out.openTag opening (name.styles ctx) (attributes.styles ctx))).closeTag closing
          (name.styles ctx) := by
  rw [Node.render]
  rfl

mutual

/-- Rendering a tree attaches the styles of its marks behind those that are there. -/
theorem Node.spans_render (ctx : R) (depth : Nat) (node : Node R T) (out : StyledText T) :
    (node.render ctx out).spans.toList =
      out.spans.toList ++ spansOf (node.marks ctx depth out.size) := by
  obtain ⟨kind, children⟩ := node
  have hchildren := Forest.spans_render ctx (depth + 1) children
  cases kind with
  | parent | definition | function | field => exact hchildren out
  | text content =>
    have h := hchildren (out.push content)
    rw [StyledText.size_push] at h
    exact h
  | mention => simp [Node.render, Node.marks]
  | style | inlineCode =>
    rw [Node.render, StyledText.spans_setStyles _ (by simp) (by simp), hchildren]
    simp [Node.marks, Mark.spans]
  | styledText content =>
    rw [Node.render, StyledText.spans_setStyles _ (by simp; omega) (by simp), hchildren]
    simp [Node.marks, Mark.spans, Nat.add_assoc]
  | listItem bullet =>
    have hle := firstCharWidth_le (Forest.renderedText ctx children)
    rw [Node.render, Forest.firstCharEnd_render, StyledText.spans_setStyles _ (by simp), hchildren]
    · simp [Node.marks, Mark.spans]
    · simp [Forest.width, hle]
  | code language body styles =>
    cases children with
    | nil =>
      rw [Node.render, StyledText.spans_setStyles _ (by simp) (by simp)]
      simp [Node.marks, Mark.spans, Forest.marks]
    | cons child children =>
      rw [Node.render, StyledText.spans_setStyles _ (by simp) (by simp)]
      simp [Node.marks, Mark.spans, hchildren]
  | tag opening closing name attributes =>
    rw [Node.render_tag, StyledText.spans_closeTag _ depth, hchildren,
      StyledText.spans_openTag _ depth, Forest.size_render, StyledText.size_openTag]
    simp only [Node.marks, spansOf_append, List.append_assoc]

/-- Rendering a forest attaches the styles of its marks behind those that are there. -/
theorem Forest.spans_render (ctx : R) (depth : Nat) (forest : List (Node R T))
    (out : StyledText T) :
    (Forest.render ctx forest out).spans.toList =
      out.spans.toList ++ spansOf (Forest.marks ctx depth out.size forest) := by
  cases forest with
  | nil => simp [Forest.render, Forest.marks]
  | cons node forest =>
    rw [Forest.render, Forest.spans_render ctx depth forest, Node.spans_render ctx depth node,
      Node.size_render, Forest.marks, spansOf_append, List.append_assoc]

end

/-! ### Marks of a text that begins elsewhere -/

theorem openingMarks_shift (depth start n : Nat) (opening : String) (name attributes : List T) :
    openingMarks depth (start + n) opening name attributes =
      (openingMarks depth start opening name attributes).map (Mark.shift n) := by
  simp only [openingMarks, Mark.shift, ByteRange.shift, List.map_cons, List.map_nil,
    Nat.add_right_comm _ n]

theorem closingMarks_shift (depth start n : Nat) (closing : Option String) (name : List T) :
    closingMarks depth (start + n) closing name =
      (closingMarks depth start closing name).map (Mark.shift n) := by
  cases closing with
  | none => rfl
  | some closing =>
    simp only [closingMarks]
    split_ifs
    · rfl
    · simp only [Mark.shift, ByteRange.shift, List.map_cons, List.map_nil, Nat.add_right_comm _ n]

mutual

/-- The marks of a tree whose text begins `n` bytes further on. -/
theorem Node.marks_shift (ctx : R) (depth start n : Nat) (node : Node R T) :
    node.marks ctx depth (start + n) = (node.marks ctx depth start).map (Mark.shift n) := by
  obtain ⟨kind, children⟩ := node
  have hchildren := fun start => Forest.marks_shift ctx (depth + 1) start n children
  cases kind with
  | tag =>
    simp only [Node.marks, List.map_append, ← openingMarks_shift, ← closingMarks_shift, ← hchildren,
      Nat.add_right_comm _ n]
  | _ =>
    simp only [Node.marks, Mark.shift, ByteRange.shift, List.map_append, List.map_cons,
      List.map_nil, ← hchildren, Nat.add_right_comm _ n]

/-- The marks of a forest whose text begins `n` bytes further on. -/
theorem Forest.marks_shift (ctx : R) (depth start n : Nat) (forest : List (Node R T)) :
    Forest.marks ctx depth (start + n) forest =
      (Forest.marks ctx depth start forest).map (Mark.shift n) := by
  cases forest with
  | nil => rfl
  | cons node forest =>
    rw [Forest.marks, Forest.marks, List.map_append, Node.marks_shift ctx depth start n node,
      Nat.add_right_comm, Forest.marks_shift ctx depth _ n forest]

end

theorem spansOf_shift (n : Nat) (marks : List (Mark T)) :
    spansOf (marks.map (Mark.shift n)) = (spansOf marks).map (StyleSpan.shift n) := by
  induction marks with
  | nil => rfl
  | cons mark marks ih => simp [ih, Mark.spans_shift]

namespace Forest

/-- A forest rendered on its own has the spans of its marks. -/
theorem spans_renderText (ctx : R) (depth : Nat) (forest : List (Node R T)) :
    (renderText ctx forest).spans.toList = spansOf (marks ctx depth 0 forest) := by
  rw [renderText, spans_render ctx depth]
  rfl

/-- The spans of a forest that is rendered behind something else are those of the forest on its
own, moved up. -/
theorem spans_render_shift (ctx : R) (forest : List (Node R T)) (out : StyledText T) :
    (render ctx forest out).spans.toList =
      out.spans.toList ++ (renderText ctx forest).spans.toList.map (StyleSpan.shift out.size) := by
  rw [spans_render ctx 0, spans_renderText ctx 0, ← spansOf_shift, ← marks_shift, Nat.zero_add]

theorem render_append (ctx : R) (a b : List (Node R T)) (out : StyledText T) :
    render ctx (a ++ b) out = render ctx b (render ctx a out) := by
  induction a generalizing out with
  | nil => rfl
  | cons node a ih => exact ih (node.render ctx out)

/-- Two forests in a row, rendered behind something else: what was there stays in front, the texts
of the two forests follow, and their spans are moved up by what stands before them. -/
theorem render_append_relocates (ctx : R) (a b : List (Node R T)) (out : StyledText T) :
    (render ctx (a ++ b) out).text =
        out.text ++ (renderText ctx a).text ++ (renderText ctx b).text ∧
      (render ctx (a ++ b) out).spans.toList =
        out.spans.toList ++
          (renderText ctx a).spans.toList.map (StyleSpan.shift out.size) ++
          (renderText ctx b).spans.toList.map
            (StyleSpan.shift (out.size + (renderText ctx a).size)) := by
  rw [render_append]
  constructor
  · rw [text_render, text_render]
    rfl
  · rw [spans_render_shift, spans_render_shift, size_render]
    rfl

end Forest

end RuledMarkup
