import RuledMarkup.Text.Unprintable

/-!
# Quoted text

A text between double quotes on one line: the quote and the backslash are escaped, the line feed,
carriage return, tab and NUL have names, and every other unprintable character is shown by its
number in hexadecimal.

## Main definitions

* `hexDigits` : a number in lower-case hexadecimal.
* `quoteChar` : how one character is written between the quotes.
* `quote` : a whole text with its quotes.
-/

namespace RuledMarkup.Text

/-- A number in lower-case hexadecimal, without leading zeros. -/
def hexDigits (n : Nat) : List Char := Nat.toDigits 16 n

/-- How one character is written inside a quoted text. -/
def quoteChar (c : Char) : List Char :=
  match c with
  | '"' => ['\\', '"']
  | '\\' => ['\\', '\\']
  | '\n' => ['\\', 'n']
  | '\r' => ['\\', 'r']
  | '\t' => ['\\', 't']
  | '\x00' => ['\\', '0']
  | c => if isUnprintable c then ['\\', 'u', '\x7b'] ++ hexDigits c.toNat ++ ['\x7d'] else [c]

/-- A text between quotes, with escapes that keep it on one line. -/
def quote (s : String) : String :=
  String.ofList ('"' :: s.toList.flatMap quoteChar ++ ['"'])

end RuledMarkup.Text
