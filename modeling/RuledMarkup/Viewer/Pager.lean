import RuledMarkup.Viewer.Lines

/-!
# Pager

A pager shows a window of the lines of a document.

## Main definitions

* `Pager` : the title, the lines, and how many of them are scrolled away.
* `Pager.scrollDown`, `Pager.scrollUp` : moves the window.
-/

namespace RuledMarkup.Viewer

/-- The lines of a document, some of which are scrolled away. -/
structure Pager where
  title : String
  lines : List Line
  /-- How many lines are above the window. -/
  scroll : Nat := 0
deriving DecidableEq, Repr

namespace Pager

/-- The most lines that can be scrolled away. -/
def scrollLimit : Nat := 65535

/-- How far scrolling down can get: the last line stays in the window. -/
def lastScroll (pager : Pager) : Nat := min (pager.lines.length - 1) scrollLimit

/-- Scrolls down, but not beyond the last line. -/
def scrollDown (pager : Pager) (count : Nat) : Pager :=
  { pager with scroll := min (pager.scroll + count) pager.lastScroll }

/-- Scrolls up, but not beyond the first line. -/
def scrollUp (pager : Pager) (count : Nat) : Pager := { pager with scroll := pager.scroll - count }

/-- However far one scrolls down, the last line stays in the window. -/
theorem scroll_scrollDown_le (pager : Pager) (n : Nat) :
    (pager.scrollDown n).scroll ≤ pager.lastScroll :=
  Nat.min_le_right _ _

/-- Scrolling up within bounds stays within them. -/
theorem scroll_scrollUp_le {pager : Pager} (h : pager.scroll ≤ pager.lastScroll) (n : Nat) :
    (pager.scrollUp n).scroll ≤ pager.lastScroll :=
  Nat.le_trans (Nat.sub_le _ _) h

end Pager

end RuledMarkup.Viewer
