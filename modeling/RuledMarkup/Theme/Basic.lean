/-!
# Themes

A theme names the colors in which a document is shown.  The names are texts; what color a text
stands for is decided when it is used.

## Main definitions

* `CodeColors`, `Theme` : the names of the colors, all with defaults.
* `Theme.headerColor?` : the color of the headers of a level.
-/

namespace RuledMarkup

/-- The names of the colors of the parts of code. -/
structure CodeColors where
  /-- Code that is nothing in particular. -/
  default : String := "white"
  comment : String := "darkgray"
  literal : String := "green"
  keyword : String := "magenta"
  identifier : String := "lightblue"
  types : String := "yellow"
  generics : String := "cyan"
  params : String := "lightyellow"
deriving DecidableEq, Repr

/-- The names of the colors in which a document is shown. -/
structure Theme where
  /-- The colors of headers, from the first level on. -/
  headers : List String := ["magenta", "cyan", "blue"]
  bullet : String := "yellow"
  quote : String := "darkgray"
  /-- The color behind code. -/
  inlineCodeBackground : String := "black"
  code : CodeColors := {}
deriving DecidableEq, Repr

namespace Theme

/-- The color of the headers of a level, counted from one.  Levels beyond the last color have that
color, and level zero has the first. -/
def headerColor? (theme : Theme) (level : Nat) : Option String :=
  theme.headers[level - 1]? <|> theme.headers.getLast?

/-- A level has no color exactly if no level has one. -/
theorem headerColor?_eq_none_iff {theme : Theme} {level : Nat} :
    theme.headerColor? level = none ↔ theme.headers = [] := by
  rw [headerColor?]
  cases hheaders : theme.headers with
  | nil => simp
  | cons name names => cases (name :: names)[level - 1]? <;> simp

end Theme

end RuledMarkup
