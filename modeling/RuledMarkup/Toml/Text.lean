import RuledMarkup.Text.Numeral
import RuledMarkup.Text.Quoted

/-!
# Texts in a configuration file

A text has four written forms.  A basic text stands between double quotes and may have escapes, and
a literal text stands between single quotes and has none.  Both stand on one line, or, between
quotes written three times, on several.

## Main definitions

* `Form`, `Form.choose` : the forms, and the one in which a text is written.
* `writeText`, `readText?` : writes and reads a text.
-/

namespace RuledMarkup.Toml

/-- How a text is written. -/
inductive Form where
  | basic
  | literal
  | basicLines
  | literalLines
deriving DecidableEq, Repr

/-- May a character stand in a text or a comment as it is?  Line ends are not meant. -/
def isPrintable (c : Char) : Bool := c = '\t' || (0x20 ≤ c.toNat && c.toNat ≠ 0x7f)

/-- Space and tab. -/
def isBlank (c : Char) : Bool := c = ' ' || c = '\t'

/-- The text without the blanks at its start. -/
def dropBlanks (cs : List Char) : List Char := cs.dropWhile isBlank

/-! ### Writing -/

/-- The length of the longest run of a character, after a run of `before` of them. -/
def longestRun (q : Char) (before : Nat) : List Char → Nat
  | [] => before
  | c :: cs =>
    if c = q then longestRun q (before + 1) cs else max before (longestRun q 0 cs)

/-- The form in which a text is written: the first of the four that needs no escapes and no more
quotes in a row than it can hold, where only the forms on several lines hold a line end; else a
basic one. -/
def Form.choose (cs : List Char) : Form :=
  let escaped := cs.any fun c => !(isPrintable c || c = '\n')
  let backslash := cs.contains '\\'
  let lines := cs.contains '\n'
  let doubled := longestRun '"' 0 cs
  let single := longestRun '\x27' 0 cs
  if !escaped && !backslash && !lines && doubled = 0 then .basic
  else if !escaped && !lines && single = 0 then .literal
  else if !escaped && !backslash && doubled ≤ 2 then .basicLines
  else if !escaped && single ≤ 2 then .literalLines
  else if lines then .basicLines
  else .basic

/-- Four hexadecimal digits in capitals. -/
def fourDigits (n : Nat) : List Char :=
  let digits := (Text.hexDigits n).map Char.toUpper
  List.replicate (4 - digits.length) '0' ++ digits

/-- A character of a basic text, quotes and line ends apart. -/
def writeChar (c : Char) : List Char :=
  match c with
  | '\x08' => ['\\', 'b']
  | '\t' => ['\\', 't']
  | '\x0c' => ['\\', 'f']
  | '\r' => ['\\', 'r']
  | '\\' => ['\\', '\\']
  | c => if isPrintable c then [c] else '\\' :: 'u' :: fourDigits c.toNat

/-- The characters of a basic text, after a run of quotes.  On several lines up to two quotes stand
as they are. -/
def writeBasic (lines : Bool) (run : Nat) : List Char → List Char
  | [] => []
  | c :: cs =>
    if c = '"' then
      if lines ∧ run < 2 then '"' :: writeBasic lines (run + 1) cs
      else '\\' :: '"' :: writeBasic lines 0 cs
    else if c = '\n' then
      (if lines then ['\n'] else ['\\', 'n']) ++ writeBasic lines 0 cs
    else writeChar c ++ writeBasic lines 0 cs

/-- The line end after the opening quotes of a text on several lines, which does not belong to the
text. -/
def openingLine (cs : List Char) : List Char := if cs.contains '\n' then ['\n'] else []

/-- A text in a form. -/
def Form.write (form : Form) (cs : List Char) : List Char :=
  match form with
  | basic => '"' :: writeBasic false 0 cs ++ ['"']
  | literal => '\x27' :: cs ++ ['\x27']
  | basicLines => ['"', '"', '"'] ++ openingLine cs ++ writeBasic true 0 cs ++ ['"', '"', '"']
  | literalLines => ['\x27', '\x27', '\x27'] ++ openingLine cs ++ cs ++ ['\x27', '\x27', '\x27']

/-- A text in the form that is chosen for it. -/
def writeText (text : String) : List Char := (Form.choose text.toList).write text.toList

/-! ### Reading -/

/-- What is being read in a basic text. -/
inductive Reading where
  | plain
  /-- A backslash has been read. -/
  | escape
  /-- Some more digits of the number of a character are to come. -/
  | code (digits : Nat) (found : Nat)
  /-- A backslash at the end of a line, after which blanks and line ends do not count.  Has the line
  ended yet? -/
  | fold (ended : Bool)
deriving DecidableEq, Repr

/-- Does a character belong to the end of a line? -/
def isLineSpace (c : Char) : Bool := isBlank c || c = '\n' || c = '\r'

/-- What is being read when a character comes. -/
def Reading.at (lines : Bool) (c : Char) : Reading → Reading
  | escape => if lines && isLineSpace c then fold false else escape
  | fold true => if isLineSpace c then fold true else plain
  | reading => reading

/-- The number of digits after an escape for a character by its number. -/
def codeLength? (c : Char) : Option Nat :=
  match c with
  | 'x' => some 2
  | 'u' => some 4
  | 'U' => some 8
  | _ => none

/-- The character for a letter after a backslash. -/
def unescape? (c : Char) : Option Char :=
  match c with
  | 'b' => some '\x08'
  | 't' => some '\t'
  | 'n' => some '\n'
  | 'f' => some '\x0c'
  | 'r' => some '\r'
  | 'e' => some '\x1b'
  | '"' => some '"'
  | '\\' => some '\\'
  | _ => none

/-- The character with a number. -/
def charOfNumber? (n : Nat) : Option Char := if n.isValidChar then some (Char.ofNat n) else none

/-- What closes a text on several lines: three quotes, before which up to two belong to it. -/
def closing? (q : Char) (cs : List Char) : Option (List Char × List Char) :=
  let run := min (cs.takeWhile (· = q)).length 5
  if run < 3 then none else some (List.replicate (run - 3) q, cs.drop run)

/-- A character before the rest of what is read. -/
def consText (c : Char) (read : Option (List Char × List Char)) :
    Option (List Char × List Char) :=
  read.map fun (text, rest) => (c :: text, rest)

/-- The rest of a basic text, and what stands after its closing quotes. -/
def readBasic (lines : Bool) (reading : Reading) : List Char → Option (List Char × List Char)
  | [] => none
  | c :: cs =>
    match reading.at lines c with
    | .plain =>
      if c = '"' then
        if lines then (closing? '"' (c :: cs)).or (consText c (readBasic lines .plain cs))
        else some ([], cs)
      else if c = '\\' then readBasic lines .escape cs
      else if c = '\n' ∧ lines then consText c (readBasic lines .plain cs)
      else if c = '\r' ∧ lines ∧ cs.head? = some '\n' then consText c (readBasic lines .plain cs)
      else if isPrintable c then consText c (readBasic lines .plain cs)
      else none
    | .escape =>
      match codeLength? c with
      | some digits => readBasic lines (.code digits 0) cs
      | none =>
        match unescape? c with
        | some e => consText e (readBasic lines .plain cs)
        | none => none
    | .code digits found =>
      match Text.digit? 16 c with
      | none => none
      | some d =>
        if digits ≤ 1 then
          match charOfNumber? (16 * found + d) with
          | some e => consText e (readBasic lines .plain cs)
          | none => none
        else readBasic lines (.code (digits - 1) (16 * found + d)) cs
    | .fold ended =>
      if c = '\n' then readBasic lines (.fold true) cs
      else if isBlank c ∨ c = '\r' ∧ cs.head? = some '\n' then readBasic lines (.fold ended) cs
      else none

/-- The rest of a literal text, and what stands after its closing quotes. -/
def readLiteral (lines : Bool) : List Char → Option (List Char × List Char)
  | [] => none
  | c :: cs =>
    if c = '\x27' then
      if lines then (closing? '\x27' (c :: cs)).or (consText c (readLiteral lines cs))
      else some ([], cs)
    else if c = '\n' ∧ lines then consText c (readLiteral lines cs)
    else if c = '\r' ∧ lines ∧ cs.head? = some '\n' then consText c (readLiteral lines cs)
    else if isPrintable c then consText c (readLiteral lines cs)
    else none

/-- The text without the line end at its start. -/
def dropLineEnd (cs : List Char) : List Char :=
  match cs with
  | '\n' :: cs => cs
  | '\r' :: '\n' :: cs => cs
  | cs => cs

/-- A text on one line. -/
def readLine? (cs : List Char) : Option (List Char × List Char) :=
  match cs with
  | '"' :: cs => readBasic false .plain cs
  | '\x27' :: cs => readLiteral false cs
  | _ => none

/-- A text, and what stands after it. -/
def readText? (cs : List Char) : Option (String × List Char) :=
  let read :=
    match cs with
    | '"' :: '"' :: '"' :: cs => readBasic true .plain (dropLineEnd cs)
    | '\x27' :: '\x27' :: '\x27' :: cs => readLiteral true (dropLineEnd cs)
    | cs => readLine? cs
  read.map fun (text, rest) => (String.ofList text, rest)

end RuledMarkup.Toml
