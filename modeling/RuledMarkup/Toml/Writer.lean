import RuledMarkup.Toml.Basic
import RuledMarkup.Toml.Text

/-!
# Writing a configuration file

A file is written as lines that give values to names, first those of the file itself and then, under
a header each, those of its tables.  The values are texts and arrays of texts.

## Main definitions

* `Plain` : a text or an array of texts.
* `Fields`, `Sections` : names with their values, and the names of tables with their fields.
* `writeDocument` : fields and tables as they are written.
* `documentValues` : the values that they stand for.
-/

namespace RuledMarkup.Toml

/-- A text or an array of texts. -/
inductive Plain where
  | text (content : String)
  | texts (items : List String)
deriving DecidableEq, Repr

/-- Names with their values, in order. -/
abbrev Fields := List (String × Plain)

/-- Names of tables with their fields, in order. -/
abbrev Sections := List (String × Fields)

/-! ### Text -/

/-- A line that gives a value to a name. -/
def writeField (name : String) (value : List Char) : List Char :=
  name.toList ++ [' ', '=', ' '] ++ value ++ ['\n']

/-- An array of texts.  Each of several texts stands on a line of its own. -/
def writeTexts (texts : List String) : List Char :=
  match texts with
  | [] => ['[', ']']
  | [text] => '[' :: writeText text ++ [']']
  | texts =>
    '[' :: '\n' :: texts.flatMap (fun text => "    ".toList ++ writeText text ++ [',', '\n'])
      ++ [']']

/-- How a value is written. -/
def Plain.write : Plain → List Char
  | text content => writeText content
  | texts items => writeTexts items

/-- The header of a table, on a line of its own. -/
def writeHeader (name : String) : List Char := '[' :: name.toList ++ [']', '\n']

/-- Lines that give values to names. -/
def writeFields (fields : Fields) : List Char :=
  fields.flatMap fun field => writeField field.1 field.2.write

/-- Tables, each under a header and with a blank line before it. -/
def writeTables (tables : Sections) : List Char :=
  tables.flatMap fun table => '\n' :: writeHeader table.1 ++ writeFields table.2

/-- A document of fields and tables. -/
def writeDocument (fields : Fields) (tables : Sections) : String :=
  String.ofList (writeFields fields ++ writeTables tables)

/-! ### Values -/

/-- What a value is when it is read. -/
def Plain.value : Plain → Value
  | text content => .text content
  | texts items => .array (items.map .text)

/-- The values of fields. -/
def fieldValues (fields : Fields) : List (String × Value) :=
  fields.map fun field => (field.1, field.2.value)

/-- The values of a document of fields and tables. -/
def documentValues (fields : Fields) (tables : Sections) : List (String × Value) :=
  fieldValues fields ++ tables.map fun table => (table.1, .table (fieldValues table.2))

end RuledMarkup.Toml
