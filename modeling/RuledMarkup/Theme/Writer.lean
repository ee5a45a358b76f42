import RuledMarkup.Theme.Basic
import RuledMarkup.Toml.Format

/-!
# Writing a theme

A theme is written with all its fields: those of the theme itself, and then, in a table, the colors
of code.

## Main definitions

* `Theme.fields`, `Theme.tables` : what a theme consists of.
* `Theme.write` : the text that describes a theme.
-/

namespace RuledMarkup

open Toml

/-- The fields of the colors of code. -/
def CodeColors.fields (colors : CodeColors) : Fields :=
  [("default", .text colors.default), ("comment", .text colors.comment),
    ("literal", .text colors.literal), ("keyword", .text colors.keyword),
    ("identifier", .text colors.identifier), ("types", .text colors.types),
    ("generics", .text colors.generics), ("params", .text colors.params)]

namespace Theme

/-- The fields of a theme, the colors of code apart. -/
def fields (theme : Theme) : Fields :=
  [("headers", .texts theme.headers), ("bullet", .text theme.bullet), ("quote", .text theme.quote),
    ("inline_code_background", .text theme.inlineCodeBackground)]

/-- The table of a theme. -/
def tables (theme : Theme) : Sections := [("code", theme.code.fields)]

/-- The text that describes a theme. -/
def write (theme : Theme) : String := writeDocument theme.fields theme.tables

end Theme

end RuledMarkup
