import RuledMarkup.Regex.Footprint
import RuledMarkup.Regex.Reader

/-!
# Compilers of regular expressions

What a written form means is decided by a compiler: it reads the form as an expression, or refuses
it, and it may refuse an expression that is too large for it.

## Main definitions

* `Regex.Compiler` : the reader of written forms and the limit on expressions.
* `Regex.Compiler.standard` : the compiler of this library.
-/

namespace RuledMarkup.Regex

/-- A compiler of regular expressions. -/
structure Compiler where
  /-- Reads a written form. -/
  read : List Char → Except ReadError Regex
  /-- Is the expression small enough? -/
  fits : Regex → Bool

/-- The reader of this library, and its limit on memory. -/
def Compiler.standard : Compiler where
  read := Regex.read
  fits := Regex.fits

end RuledMarkup.Regex
