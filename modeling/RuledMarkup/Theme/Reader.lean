import RuledMarkup.Theme.Basic
import RuledMarkup.Toml.Format

/-!
# Reading a theme

A theme is read from a file in TOML.  What the file does not say is as in the default theme, and
names that mean nothing are passed over.  The colors of code may also be given as an array, in
order.

## Main definitions

* `Theme.ofValues` : the theme with the values of a file.
* `Theme.read` : the theme that a text describes.
-/

namespace RuledMarkup

open Toml

namespace CodeColors

/-- The names of the colors in a file, in order. -/
def keys : List String :=
  ["default", "comment", "literal", "keyword", "identifier", "types", "generics", "params"]

/-- The colors with the values of a table. -/
def ofValues (entries : List (String × Value)) : Except Error CodeColors := do
  let color (name fallback : String) := field entries name fallback Value.asText
  let colors : CodeColors := {}
  .ok {
    default := ← color "default" colors.default
    comment := ← color "comment" colors.comment
    literal := ← color "literal" colors.literal
    keyword := ← color "keyword" colors.keyword
    identifier := ← color "identifier" colors.identifier
    types := ← color "types" colors.types
    generics := ← color "generics" colors.generics
    params := ← color "params" colors.params }

/-- The colors of a table, or of an array that gives the first of them in order. -/
def ofValue (name : String) : Value → Except Error CodeColors
  | .table entries => ofValues entries
  | .array items => ofValues (keys.zip items)
  | _ => .error (.wrongType name)

end CodeColors

namespace Theme

/-- The theme with the values of a file. -/
def ofValues (entries : List (String × Value)) : Except Error Theme := do
  let theme : Theme := {}
  .ok {
    headers := ← field entries "headers" theme.headers Value.asTexts
    bullet := ← field entries "bullet" theme.bullet Value.asText
    quote := ← field entries "quote" theme.quote Value.asText
    inlineCodeBackground :=
      ← field entries "inline_code_background" theme.inlineCodeBackground Value.asText
    code := ← field entries "code" theme.code CodeColors.ofValue }

/-- The theme that a text describes, as it is read with a format. -/
def read (text : String) (format : Format := .standard) : Except Error Theme := do
  ofValues (← format.read text)

end Theme

end RuledMarkup
