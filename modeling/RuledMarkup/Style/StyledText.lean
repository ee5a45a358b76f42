import RuledMarkup.Text.Layout
import RuledMarkup.Text.Quoted
import RuledMarkup.Text.Slice

/-!
# Styled text

A text that only grows, and styles attached to ranges of its bytes in the order in which they were
attached.

## Main definitions

* `StyledText` : the text and its style spans.
* `StyledText.push`, `StyledText.setStyle` : the two ways in which it grows.
* `StyledText.stylesAt` : the styles of a byte.
-/

namespace RuledMarkup

/-- A style over a range of bytes. -/
structure StyleSpan (T : Type) where
  style : T
  range : Text.ByteRange
deriving DecidableEq, Repr

/-- A text with style spans, in the order they were attached. -/
structure StyledText (T : Type) where
  text : String := ""
  spans : Array (StyleSpan T) := #[]
deriving DecidableEq, Repr

namespace StyledText

variable {T : Type}

/-- The number of bytes of the text. -/
def size (s : StyledText T) : Nat := s.text.utf8ByteSize

/-- Is the text empty? -/
def isEmpty (s : StyledText T) : Bool := s.size == 0

/-- Adds text at the end. -/
def push (s : StyledText T) (more : String) : StyledText T := { s with text := s.text ++ more }

/-- Attaches a style to a range, of which only the part within the text counts.  A range without
bytes is kept. -/
def setStyle (s : StyledText T) (style : T) (range : Text.ByteRange) : StyledText T :=
  let stop := min range.stop s.size
  { s with spans := s.spans.push ⟨style, ⟨min range.start stop, stop⟩⟩ }

/-- Attaches several styles to one range, in order. -/
def setStyles (s : StyledText T) (styles : List T) (range : Text.ByteRange) : StyledText T :=
  styles.foldl (fun s style => s.setStyle style range) s

/-- The styles whose ranges contain the byte at `i`, in the order they were attached. -/
def stylesAt (s : StyledText T) (i : Nat) : List T :=
  (s.spans.toList.filter fun span => span.range.contains i).map (·.style)

/-- The styled text written out with its spans. -/
def inspect (s : StyledText T) (layout : Text.Layout) (style : T → String) : String :=
  let span (span : StyleSpan T) := layout.record "StyleSpan"
    [("style", style span.style),
      ("range", toString span.range.start ++ ".." ++ toString span.range.stop)]
  layout.record "StyledText"
    [("text", Text.quote s.text), ("spans", layout.list (s.spans.toList.map span))]

@[simp] theorem text_push (s : StyledText T) (more : String) :
    (s.push more).text = s.text ++ more := rfl

@[simp] theorem spans_push (s : StyledText T) (more : String) : (s.push more).spans = s.spans := rfl

@[simp] theorem text_setStyle (s : StyledText T) (style : T) (range : Text.ByteRange) :
    (s.setStyle style range).text = s.text := rfl

@[simp] theorem size_setStyle (s : StyledText T) (style : T) (range : Text.ByteRange) :
    (s.setStyle style range).size = s.size := rfl

/-- A range within the text is attached as it is. -/
theorem spans_setStyle {s : StyledText T} {style : T} {range : Text.ByteRange}
    (h : range.start ≤ range.stop) (hs : range.stop ≤ s.size) :
    (s.setStyle style range).spans = s.spans.push ⟨style, range⟩ := by
  cases range
  simp only [setStyle] at *
  rw [Nat.min_eq_left hs, Nat.min_eq_left h]

@[simp] theorem text_setStyles (s : StyledText T) (styles : List T) (range : Text.ByteRange) :
    (s.setStyles styles range).text = s.text := by
  induction styles generalizing s with
  | nil => rfl
  | cons style styles ih => exact (ih (s.setStyle style range)).trans rfl

end StyledText

end RuledMarkup
