import RuledMarkup.Text.Columns
import RuledMarkup.Text.Grapheme

/-!
# Rows of cells

A row of the screen is divided into cells of one column each.  A grapheme of several columns stands
in the first of them, and the others are blank.

## Main definitions

* `Cell` : what is shown in a cell.
* `place` : the cells of graphemes side by side, as many as there is room for.
* `draw` : draws texts over cells.

## Main results

* `length_place_le`, `length_draw` : how many cells there are.
-/

namespace RuledMarkup.Viewer

open Text

/-- The characters that are shown in a cell. -/
abbrev Cell := List Char

/-- A cell in which nothing is shown. -/
def blank : Cell := [' ']

/-- The text of a row. -/
def rowText (cells : List Cell) : String := String.ofList cells.flatten

/-- The graphemes of a text that can be shown.  Control characters cannot. -/
def visible (cs : List Char) : List Cell :=
  (graphemes cs).filter fun grapheme => !grapheme.any isControl

/-! ### Side by side -/

/-- The cells of graphemes side by side, up to the first one for which there is no room.  A grapheme
that takes no column is not shown. -/
def place (room : Nat) : List Cell → List Cell
  | [] => []
  | grapheme :: rest =>
    let size := columns grapheme
    if size = 0 then place room rest
    else if room < size then []
    else grapheme :: List.replicate (size - 1) blank ++ place (room - size) rest

/-- The cells of a row with some graphemes, of which those are left out that are wider than the
row. -/
def placeRow (width : Nat) (shown : List Cell) : List Cell :=
  place width (shown.filter fun grapheme => columns grapheme ≤ width)

theorem length_place_le (room : Nat) (shown : List Cell) : (place room shown).length ≤ room := by
  induction shown generalizing room with
  | nil => simp [place]
  | cons grapheme rest ih =>
    simp only [place]
    split
    · exact ih room
    · split
      · simp
      · have := ih (room - columns grapheme)
        simp only [List.cons_append, List.length_cons, List.length_append, List.length_replicate]
        omega

/-! ### Over one another -/

/-- Puts a grapheme into the cell at a column, where those after it become blank up to the end of
the grapheme.  A grapheme that takes no column is put after what the cell before holds; at the first
column it follows what has been drawn there. -/
def putGrapheme (drawn : Bool) (column : Nat) (grapheme : Cell) (cells : List Cell) : List Cell :=
  let size := columns grapheme
  let put :=
    if !drawn then cells.set 0 grapheme
    else if column = 0 then cells.modify 0 (· ++ grapheme)
    else if size = 0 then cells.modify (column - 1) (· ++ grapheme)
    else cells.set column grapheme
  put.mapIdx fun i cell => if column < i ∧ i < column + size then blank else cell

@[simp] theorem length_putGrapheme (drawn : Bool) (column : Nat) (grapheme : Cell)
    (cells : List Cell) : (putGrapheme drawn column grapheme cells).length = cells.length := by
  simp only [putGrapheme, List.length_mapIdx]
  split
  · simp
  · split
    · simp
    · split <;> simp

/-- Draws graphemes over cells from a column on, up to the first one for which there is no room. -/
def drawGraphemes (drawn : Bool) (column : Nat) (cells : List Cell) : List Cell → List Cell
  | [] => cells
  | grapheme :: rest =>
    if cells.length < column + columns grapheme then cells
    else
      drawGraphemes true (column + columns grapheme) (putGrapheme drawn column grapheme cells) rest

@[simp] theorem length_drawGraphemes (drawn : Bool) (column : Nat) (cells shown : List Cell) :
    (drawGraphemes drawn column cells shown).length = cells.length := by
  induction shown generalizing drawn column cells with
  | nil => rfl
  | cons grapheme rest ih => rw [drawGraphemes]; split <;> simp [ih]

/-- Draws texts over cells, each from the column after those of the texts before it on.  A text that
takes no column is not drawn. -/
def draw (cells : List Cell) : List (List Char) → List Cell
  | [] => cells
  | text :: rest =>
    let size := columns text
    let drawn := if size = 0 then cells else drawGraphemes false 0 cells (visible text)
    drawn.take size ++ draw (drawn.drop size) rest

/-- Drawing keeps the number of cells. -/
@[simp] theorem length_draw (cells : List Cell) (texts : List (List Char)) :
    (draw cells texts).length = cells.length := by
  induction texts generalizing cells with
  | nil => rfl
  | cons text rest ih =>
    simp only [draw, List.length_append, ih, List.length_take, List.length_drop]
    split
    · omega
    · rw [length_drawGraphemes]
      omega

/-- The cells as they are seen: what is in the cell after one that holds several columns is covered
by it. -/
def uncovered (covered : Bool) : List Cell → List Cell
  | [] => []
  | cell :: rest =>
    (if covered then blank else cell) :: uncovered (decide (1 < columns cell)) rest

@[simp] theorem length_uncovered (covered : Bool) (cells : List Cell) :
    (uncovered covered cells).length = cells.length := by
  induction cells generalizing covered with
  | nil => rfl
  | cons cell rest ih => simp [uncovered, ih]

end RuledMarkup.Viewer
