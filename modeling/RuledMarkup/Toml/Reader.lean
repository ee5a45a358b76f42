import RuledMarkup.Toml.Scalar
import RuledMarkup.Toml.Table
import RuledMarkup.Toml.Text

/-!
# Reading a configuration file

A file is a list of statements, each on a line of its own: a value for a name, or the header of a
table or of an element of an array of tables.  Blank lines and comments may stand between them.

## Main definitions

* `allowedDepth` : how many values may stand in one another, and how many names in a path.
* `readValue` : reads a value.
* `Document`, `readStatements` : a file in the course of being read, and its statements.
* `read` : the values of a file.
-/

namespace RuledMarkup.Toml

/-- A part that must be there. -/
def required {α : Type} (part : Option α) : Except Error α :=
  match part with
  | none => .error .malformed
  | some found => .ok found

/-- The text without the blanks, line ends and comments at its start; nothing if a character stands
there that may not stand in a comment.  `comment` says whether the text begins inside a comment. -/
def dropGap? (comment : Bool) : List Char → Option (List Char)
  | [] => some []
  | c :: cs =>
    if c = '\n' then dropGap? false cs
    else if c = '\r' then if cs.head? = some '\n' then dropGap? false cs else none
    else if comment then if isPrintable c then dropGap? true cs else none
    else if isBlank c then dropGap? false cs
    else if c = '#' then dropGap? true cs
    else some (c :: cs)

/-- What stands after the end of a line, before which there may be a comment. -/
def afterLine? (cs : List Char) : Option (List Char) :=
  let rest :=
    match dropBlanks cs with
    | '#' :: cs => cs.dropWhile isPrintable
    | cs => cs
  match rest with
  | [] => some []
  | '\n' :: cs => some cs
  | '\r' :: '\n' :: cs => some cs
  | _ => none

/-! ### Names -/

/-- The characters of a name without quotes. -/
def isKeyChar (c : Char) : Bool := c.isAlphanum || c = '_' || c = '-'

/-- A name, and what stands after it. -/
def readKey? (cs : List Char) : Option (String × List Char) :=
  match readLine? cs with
  | some (name, rest) => some (String.ofList name, rest)
  | none =>
    if (cs.head?.any isKeyChar) then
      some (String.ofList (cs.takeWhile isKeyChar), cs.dropWhile isKeyChar)
    else none

/-- A path has at most so many names, and so many arrays and tables in braces may stand in one
another. -/
def allowedDepth : Nat := 80

/-- A path of at most `bound` names, and what stands after it and its blanks. -/
def readPath? : Nat → List Char → Option (KeyPath × List Char)
  | 0, _ => none
  | bound + 1, cs => do
    let (name, rest) ← readKey? cs
    match dropBlanks rest with
    | '.' :: rest =>
      let (below, rest) ← readPath? bound (dropBlanks rest)
      some (⟨name :: below.parents, below.name⟩, rest)
    | rest => some (⟨[], name⟩, rest)

/-- A path, the sign between a name and its value, and what stands after it. -/
def readAssigned? (cs : List Char) : Option (KeyPath × List Char) := do
  let (path, rest) ← readPath? allowedDepth cs
  match rest with
  | '=' :: rest => some (path, dropBlanks rest)
  | _ => none

/-- The same in a table in braces, where lines may end before the sign and after it. -/
def readField? (cs : List Char) : Option (KeyPath × List Char) := do
  let (path, rest) ← readPath? allowedDepth cs
  match ← dropGap? false rest with
  | '=' :: rest => some (path, ← dropGap? false rest)
  | _ => none

/-! ### Values -/

mutual

/-- A value, and what stands after it, in which at most `depth` arrays and tables stand in one
another.  There are fewer than `bound` values in it. -/
def readValue : Nat → Nat → List Char → Except Error (Value × List Char)
  | 0, _, _ => .error .malformed
  | bound + 1, depth, cs =>
    match depth, cs with
    | 0, '[' :: _ => .error .malformed
    | depth + 1, '[' :: rest => do
      let (items, rest) ← readItems bound depth rest
      .ok (.array items, rest)
    | 0, '\x7b' :: _ => .error .malformed
    | depth + 1, '\x7b' :: rest => do
      let (table, rest) ← readFields bound depth [] rest
      .ok (.table (entriesToValues table), rest)
    | _, cs =>
      match readText? cs with
      | some (text, rest) => .ok (.text text, rest)
      | none => required (readScalar? cs)

/-- The items of an array, and what stands after its closing bracket.  There are fewer than `bound`
of them. -/
def readItems : Nat → Nat → List Char → Except Error (List Value × List Char)
  | 0, _, _ => .error .malformed
  | bound + 1, depth, cs => do
    match ← required (dropGap? false cs) with
    | ']' :: rest => .ok ([], rest)
    | cs =>
      let (item, rest) ← readValue bound depth cs
      match ← required (dropGap? false rest) with
      | ',' :: rest =>
        let (items, rest) ← readItems bound depth rest
        .ok (item :: items, rest)
      | ']' :: rest => .ok ([item], rest)
      | _ => .error .malformed

/-- The fields of a table in braces after those in `table`, and what stands after its closing brace.
There are fewer than `bound` of them. -/
def readFields : Nat → Nat → Table → List Char → Except Error (Table × List Char)
  | 0, _, _, _ => .error .malformed
  | bound + 1, depth, table, cs => do
    match ← required (dropGap? false cs) with
    | '\x7d' :: rest => .ok (table, rest)
    | cs =>
      let (path, rest) ← required (readField? cs)
      let (value, rest) ← readValue bound depth rest
      let table ← table.assign path value .header
      match ← required (dropGap? false rest) with
      | ',' :: rest => readFields bound depth table rest
      | '\x7d' :: rest => .ok (table, rest)
      | _ => .error .malformed

end

/-! ### Statements -/

/-- A file in the course of being read: its tables, and the path of the table that is being
filled. -/
structure Document where
  root : Table := []
  current : List String := []

/-- Gives a value to a name in the table that is being filled. -/
def Document.assign (document : Document) (path : KeyPath) (value : Value) :
    Except Error Document := do
  let root ← document.root.change false (Table.assign path value) document.current .header
  .ok { document with root }

/-- The document after a statement, and what stands after the statement. -/
def readStatement (document : Document) (cs : List Char) : Except Error (Document × List Char) :=
  match cs with
  | '[' :: '[' :: rest => do
    match ← required (readPath? allowedDepth (dropBlanks rest)) with
    | (path, ']' :: ']' :: rest) => .ok (⟨← document.root.element path, path.names⟩, rest)
    | _ => .error .malformed
  | '[' :: rest => do
    match ← required (readPath? allowedDepth (dropBlanks rest)) with
    | (path, ']' :: rest) => .ok (⟨← document.root.header path, path.names⟩, rest)
    | _ => .error .malformed
  | cs => do
    let (path, rest) ← required (readAssigned? cs)
    let (value, rest) ← readValue rest.length allowedDepth rest
    .ok (← document.assign path value, rest)

/-- The document after at most `bound` statements, which are all there may be. -/
def readStatements : Nat → Document → List Char → Except Error Document
  | 0, _, _ => .error .malformed
  | bound + 1, document, cs => do
    match ← required (dropGap? false cs) with
    | [] => .ok document
    | cs =>
      let (document, rest) ← readStatement document cs
      readStatements bound document (← required (afterLine? rest))

/-- The values of a file.  A mark of the byte order at its start does not count. -/
def read (text : String) : Except Error (List (String × Value)) := do
  let cs :=
    match text.toList with
    | '\ufeff' :: cs => cs
    | cs => cs
  let document ← readStatements (cs.length + 1) {} cs
  .ok (entriesToValues document.root)

end RuledMarkup.Toml
