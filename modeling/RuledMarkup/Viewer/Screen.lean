import RuledMarkup.Viewer.Pager
import RuledMarkup.Viewer.Row

/-!
# Screen of the pager

The screen is a box with the title on its upper border and the lines of the document in it, and
below the box a line that names the keys.

## Main definitions

* `fit` : cuts and pads cells to a width.
* `titleCells`, `lineCells` : what is shown of a title and of a line.
* `Pager.screen` : the rows of a screen.

## Main results

* `Pager.length_screen` : a screen has as many rows as it is high.
-/

namespace RuledMarkup.Viewer

open Text

/-- Cells cut to a width, or filled up to it. -/
def fit (width : Nat) (filler : Char) (cells : List Cell) : List Cell :=
  cells.take width ++ List.replicate (width - cells.length) [filler]

@[simp] theorem length_fit (width : Nat) (filler : Char) (cells : List Cell) :
    (fit width filler cells).length = width := by
  simp [fit]; omega

/-- The texts between the line ends of a text.  A line end at the end of a text ends its last
line. -/
def textLines : List Char → List (List Char)
  | [] => []
  | '\n' :: cs => [] :: textLines cs
  | '\r' :: '\n' :: cs => [] :: textLines cs
  | c :: cs =>
    match textLines cs with
    | [] => [[c]]
    | line :: lines => (c :: line) :: lines

/-- The cells of a title on a border of some width.  The lines of a title stand side by side, and
where control characters are left out the border is seen. -/
def titleCells (width : Nat) (title : String) : List Cell :=
  let texts := textLines title.toList
  let size := texts.foldl (fun size text => size + columns text) 0
  uncovered false (draw (List.replicate (min size width) ['─']) texts)

/-- The cells of a line in a row of some width. -/
def lineCells (width : Nat) (line : Line) : List Cell :=
  placeRow width (line.flatMap fun segment => visible segment.content.toList)

/-- A row that begins and ends with a border.  Of the two borders of a row of one place the left
one is shown. -/
def bordered (width : Nat) (left right filler : Char) (inner : Nat → List Cell) : String :=
  match width with
  | 0 => ""
  | 1 => left.toString
  | width + 2 => rowText ([left] :: fit width filler (inner width) ++ [[right]])

/-- The upper border, with the title. -/
def topRow (width : Nat) (title : String) : String :=
  bordered width '┌' '┐' '─' fun width => titleCells width title

/-- The lower border. -/
def bottomRow (width : Nat) : String := bordered width '└' '┘' '─' fun _ => []

/-- A row inside the box. -/
def innerRow (width : Nat) (line : Line) : String :=
  bordered width '│' '│' ' ' fun width => lineCells width line

/-- The rows of the box around some lines.  A box of one row is its upper border. -/
def box (width height : Nat) (title : String) (lines : List Line) : List String :=
  match height with
  | 0 => []
  | 1 => [topRow width title]
  | inner + 2 =>
    let rows := lines.take inner |>.map (innerRow width)
    let empty := List.replicate (inner - lines.length) (innerRow width [])
    topRow width title :: (rows ++ empty ++ [bottomRow width])

/-- The names of the keys. -/
def help : String := "q: Quit | ↑/k: Up | ↓/j: Down | PgUp/PgDn/Space: Page"

/-- The row with the names of the keys. -/
def helpRow (width : Nat) : String := rowText (fit width ' ' (placeRow width (visible help.toList)))

/-- The rows of a screen.  The names of the keys take the last one. -/
def Pager.screen (pager : Pager) (width height : Nat) : List String :=
  match height with
  | 0 => []
  | height + 1 =>
    box width height pager.title (pager.lines.drop pager.scroll) ++ [helpRow width]

theorem length_box (width height : Nat) (title : String) (lines : List Line) :
    (box width height title lines).length = height := by
  rcases height with _ | _ | inner
  · rfl
  · rfl
  · simp [box]; omega

/-- A screen has as many rows as it is high. -/
theorem Pager.length_screen (pager : Pager) (width height : Nat) :
    (pager.screen width height).length = height := by
  rcases height with _ | height
  · rfl
  · simp [screen, length_box]

end RuledMarkup.Viewer
