import RuledMarkup.Toml.Reader
import RuledMarkup.Toml.Writer

/-!
# Readers and writers of configuration files

Themes are read and written with the reader and the writer of a format, and it does not matter here
how these go about it.

## Main definitions

* `Format` : a reader and a writer of files.
* `Format.standard` : the reader and the writer of this library.
-/

namespace RuledMarkup.Toml

/-- A reader and a writer of files. -/
structure Format where
  /-- The values of a text. -/
  read : String → Except Error (List (String × Value))
  /-- The text of fields and tables, or why there is none. -/
  write : Fields → Sections → Except String String

/-- The reader and the writer of this library.  Every document can be written. -/
def Format.standard : Format where
  read := Toml.read
  write fields tables := .ok (writeDocument fields tables)

end RuledMarkup.Toml
