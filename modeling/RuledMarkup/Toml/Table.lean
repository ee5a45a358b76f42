import RuledMarkup.Toml.Basic

/-!
# Tables of a configuration file

A file gives the values of its tables one after the other, and headers say which table the values
after them belong to.  A table may be given in several pieces only where the pieces are of one kind:
a table with a header has that one header, and dotted names put values only into tables that dotted
names have made.

## Main definitions

* `Table.assign` : gives a value to a name.
* `Table.header`, `Table.element` : begins a table, and a further element of an array of tables.
* `Table.toValues` : the values of a finished table.
-/

namespace RuledMarkup.Toml

/-- How a table came to be. -/
inductive Origin where
  /-- It stands around a table with a header. -/
  | implied
  /-- It has a header, or is an element of an array of tables. -/
  | header
  /-- It was made by a dotted name. -/
  | dotted
deriving DecidableEq, Repr

/-- What a name stands for while a file is read. -/
inductive Item where
  /-- A finished value. -/
  | value (value : Value)
  /-- A table into which more may be put. -/
  | table (origin : Origin) (entries : List (String × Item))
  /-- An array of tables, the last one apart, into which more may be put. -/
  | tables (earlier : List (List (String × Item))) (current : List (String × Item))

/-- The names of a table with what they stand for, in the order in which they were given. -/
abbrev Table := List (String × Item)

/-- Puts something else under a name that is in the table. -/
def Table.replace (table : Table) (name : String) (item : Item) : Table :=
  table.map fun entry => if entry.1 = name then (name, item) else entry

/-- Changes the table at the end of a path.  Tables that are missing on the way are made.  A dotted
name does not lead through a table with a header. -/
def Table.change (dotted : Bool) (edit : Origin → Table → Except Error Table) :
    List String → Origin → Table → Except Error Table
  | [], origin, table => edit origin table
  | name :: path, _, table =>
    match table.lookup name with
    | none => do
      let origin := if dotted then .dotted else .implied
      let below ← change dotted edit path origin []
      .ok (table ++ [(name, .table origin below)])
    | some (.value _) => .error (.notTable name)
    | some (.tables earlier current) => do
      let below ← change dotted edit path .header current
      .ok (table.replace name (.tables earlier below))
    | some (.table origin below) =>
      if dotted && origin = .header then .error (.redefined name)
      else do
        let below ← change dotted edit path origin below
        .ok (table.replace name (.table origin below))

/-- Gives a value to a name that has none. -/
def Table.put (dotted : Bool) (name : String) (value : Value) (origin : Origin) (table : Table) :
    Except Error Table :=
  if dotted ∧ origin ≠ .dotted ∨ ¬ dotted ∧ origin = .dotted then .error (.redefined name)
  else
    match table.lookup name with
    | none => .ok (table ++ [(name, .value value)])
    | some _ => .error (.redefined name)

/-- Gives a value to a name in a table of the given origin. -/
def Table.assign (path : KeyPath) (value : Value) (origin : Origin) (table : Table) :
    Except Error Table :=
  let dotted := !path.parents.isEmpty
  table.change dotted (put dotted path.name value) path.parents origin

/-- Begins a table.  A table that stands around others may still get its header. -/
def Table.begin (name : String) (table : Table) : Except Error Table :=
  match table.lookup name with
  | none => .ok (table ++ [(name, .table .header [])])
  | some (.table .implied below) => .ok (table.replace name (.table .header below))
  | some _ => .error (.redefined name)

/-- Begins a further element of an array of tables. -/
def Table.extend (name : String) (table : Table) : Except Error Table :=
  match table.lookup name with
  | none => .ok (table ++ [(name, .tables [] [])])
  | some (.tables earlier current) => .ok (table.replace name (.tables (earlier ++ [current]) []))
  | some _ => .error (.redefined name)

/-- Begins the table at a path. -/
def Table.header (path : KeyPath) (table : Table) : Except Error Table :=
  table.change false (fun _ => begin path.name) path.parents .header

/-- Begins a further element of the array of tables at a path. -/
def Table.element (path : KeyPath) (table : Table) : Except Error Table :=
  table.change false (fun _ => extend path.name) path.parents .header

mutual

/-- The finished value of an item. -/
def Item.toValue : Item → Value
  | .value value => value
  | .table _ entries => .table (entriesToValues entries)
  | .tables earlier current =>
    .array (tablesToValues earlier ++ [.table (entriesToValues current)])

/-- The finished values of a table. -/
def entriesToValues : List (String × Item) → List (String × Value)
  | [] => []
  | (name, item) :: entries => (name, item.toValue) :: entriesToValues entries

/-- The finished values of several tables. -/
def tablesToValues : List (List (String × Item)) → List Value
  | [] => []
  | table :: tables => .table (entriesToValues table) :: tablesToValues tables

end

end RuledMarkup.Toml
