/-!
# Layouts of structured values

How a value with parts is written out: on one line, or with one part to a line, indented by four
spaces and followed by a comma.

## Main definitions

* `Layout` : on one line or on several.
* `Layout.list`, `Layout.tuple`, `Layout.record` : the three shapes with parts.
-/

namespace RuledMarkup.Text

/-- Whether the parts of a value stand on one line or on a line each. -/
inductive Layout where
  | compact
  | indented
deriving DecidableEq, Repr

namespace Layout

/-- Puts four spaces before every line. -/
def indent (s : String) : String :=
  "    " ++ String.ofList (s.toList.flatMap fun c => if c = '\n' then "\n    ".toList else [c])

/-- The parts between an opening and a closing bracket; nothing stands between the brackets if
there are no parts. -/
def enclose (layout : Layout) (opening closing : String) (parts : List String) : String :=
  match layout, parts with
  | _, [] => opening ++ closing
  | .compact, parts => opening ++ ", ".intercalate parts ++ closing
  | .indented, parts =>
    opening ++ "\n" ++ String.join (parts.map fun part => indent part ++ ",\n") ++ closing

/-- A list in square brackets. -/
def list (layout : Layout) (items : List String) : String :=
  layout.enclose "[" "]" items

/-- A name with its arguments in parentheses; the bare name if there are none. -/
def tuple (layout : Layout) (name : String) (arguments : List String) : String :=
  if arguments.isEmpty then name else name ++ layout.enclose "(" ")" arguments

/-- A name with its fields in braces; the bare name if there are none. -/
def record (layout : Layout) (name : String) (fields : List (String × String)) : String :=
  if fields.isEmpty then name
  else
    let parts := fields.map fun field => field.1 ++ ": " ++ field.2
    match layout with
    | .compact => name ++ " \x7b " ++ ", ".intercalate parts ++ " \x7d"
    | .indented => name ++ layout.enclose " \x7b" "\x7d" parts

/-- A name with some of its fields in braces, on one line, and a sign that others are left out. -/
def partialRecord (name : String) (fields : List (String × String)) : String :=
  let parts := fields.map fun field => field.1 ++ ": " ++ field.2
  name ++ " \x7b " ++ ", ".intercalate (parts ++ [".."]) ++ " \x7d"

/-- An optional value, as a tuple of its name. -/
def option (layout : Layout) : Option String → String
  | none => "None"
  | some s => layout.tuple "Some" [s]

end Layout

end RuledMarkup.Text
