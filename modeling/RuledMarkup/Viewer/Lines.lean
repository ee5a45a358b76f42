import RuledMarkup.Style.StyledText
import RuledMarkup.Terminal.Style

/-!
# Lines of a terminal

A rendered text is cut wherever a style begins or ends and around every line end.  Each piece is
shown in the styles that cover it, laid over each other from the widest to the narrowest, and a
bullet is put before the byte at which its range begins.

## Main definitions

* `Segment`, `Line` : a text in one style, and the segments of a line.
* `cuts`, `pieces` : where a text is cut, and what stands between the cuts.
* `toLines` : the lines of a text.
-/

namespace RuledMarkup.Viewer

open Terminal

/-- A text in one style. -/
structure Segment (σ : Type := Style) where
  content : String
  style : σ
deriving DecidableEq, Repr

/-- The segments of a line. -/
abbrev Line (σ : Type := Style) := List (Segment σ)

variable {σ : Type}

/-- The text of a line. -/
def Line.text (line : Line σ) : String := String.join (line.map (·.content))

/-- What stands between two cuts, or before the next one. -/
inductive Piece (σ : Type) where
  | segment (segment : Segment σ)
  | lineEnd
deriving DecidableEq, Repr

/-- The lines of a list of pieces; a line end always begins a new line. -/
def lines : List (Piece σ) → List (Line σ)
  | [] => [[]]
  | .lineEnd :: pieces => [] :: lines pieces
  | .segment segment :: pieces =>
    match lines pieces with
    | [] => [[segment]]
    | line :: rest => (segment :: line) :: rest

theorem lines_ne_nil (pieces : List (Piece σ)) : lines pieces ≠ [] := by
  cases pieces with
  | nil => simp [lines]
  | cons piece pieces =>
    cases piece with
    | lineEnd => simp [lines]
    | segment segment => rw [lines]; split <;> simp

/-- There is one line more than there are line ends. -/
theorem length_lines [DecidableEq σ] (pieces : List (Piece σ)) :
    (lines pieces).length = pieces.count .lineEnd + 1 := by
  induction pieces with
  | nil => rfl
  | cons piece pieces ih =>
    cases piece with
    | lineEnd => simp [lines, ih]
    | segment segment =>
      rw [List.count_cons_of_ne (by simp), ← ih, lines]
      split
      · next h => exact absurd h (lines_ne_nil pieces)
      · next h => simp [h]

/-- A span of a text. -/
abbrev AttributeSpan (σ : Type := Style) := StyleSpan (Attribute σ)

/-- The spans from the widest to the narrowest.  Spans of one width keep their order. -/
def byWidth (spans : List (AttributeSpan σ)) : List (AttributeSpan σ) :=
  spans.mergeSort fun a b => b.range.size ≤ a.range.size

theorem byWidth_perm (spans : List (AttributeSpan σ)) : (byWidth spans).Perm spans :=
  List.mergeSort_perm spans _

/-- The bytes at which the line ends of a text that begins at byte `start` stand. -/
def lineEnds (start : Nat) : List Char → List Nat
  | [] => []
  | c :: cs =>
    if c = '\n' then start :: lineEnds (start + c.utf8Size) cs
    else lineEnds (start + c.utf8Size) cs

/-- Where a text is cut: at its ends, at the ends of every span, and before and after every line
end. -/
def cuts (text : String) (spans : List (AttributeSpan σ)) : List Nat :=
  let ends := (lineEnds 0 text.toList).flatMap fun i => [i, i + 1]
  let borders := spans.flatMap fun span => [span.range.start, span.range.stop]
  ((0 :: text.utf8ByteSize :: (borders ++ ends)).mergeSort (· ≤ ·)).eraseReps

/-- The bullets of the spans that begin at a byte. -/
def bulletsAt (spans : List (AttributeSpan σ)) (i : Nat) : List (Segment σ) :=
  spans.filterMap fun span =>
    match span.style with
    | .bullet style => if span.range.start = i then some ⟨"• ", style⟩ else none
    | .style _ => none

variable [Layered σ]

/-- The style of a piece of text: those of the spans around it, each laid over the ones before. -/
def styleOf (spans : List (AttributeSpan σ)) (range : Text.ByteRange) : σ :=
  spans.foldl (fun style span =>
    match span.style with
    | .style upper =>
      if span.range.start ≤ range.start ∧ range.stop ≤ span.range.stop then
        Layered.patch style upper
      else style
    | .bullet _ => style) Layered.plain

/-- The text between two cuts. -/
def pieceAt (text : String) (spans : List (AttributeSpan σ)) (range : Text.ByteRange) : Piece σ :=
  let content := Text.slice text range
  if content = "\n" then .lineEnd else .segment ⟨content, styleOf spans range⟩

/-- The pieces of a text with cuts: before each piece the bullets that begin with it, and at the end
those that begin there. -/
def piecesBetween (text : String) (spans : List (AttributeSpan σ)) : List Nat → List (Piece σ)
  | [] => []
  | [final] => (bulletsAt spans final).map .segment
  | start :: stop :: rest =>
    (bulletsAt spans start).map .segment ++ pieceAt text spans ⟨start, stop⟩ ::
      piecesBetween text spans (stop :: rest)

/-- The pieces of a rendered text. -/
def pieces (text : String) (spans : List (AttributeSpan σ)) : List (Piece σ) :=
  piecesBetween text spans (cuts text spans)

/-- The lines of a rendered text. -/
def toLines (styled : StyledText (Attribute σ)) : List (Line σ) :=
  lines (pieces styled.text (byWidth styled.spans.toList))

end RuledMarkup.Viewer
