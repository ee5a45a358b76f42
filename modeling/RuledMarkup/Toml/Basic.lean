/-!
# Values of a configuration file

## Main definitions

* `Toml.Value` : the values of a file in TOML.
* `Toml.KeyPath` : the name of a value and the names of the tables around it.
* `Toml.Error` : why a text is no such file, or not the one that is wanted.
* `Toml.field` : the value under a name, converted to the type that is wanted.
-/

namespace RuledMarkup.Toml

/-- A value of a file.  Of numbers with a fraction and of dates the written form is kept. -/
inductive Value where
  | text (text : String)
  | integer (value : Int)
  | float (written : String)
  | boolean (value : Bool)
  | date (written : String)
  | array (items : List Value)
  | table (entries : List (String × Value))

/-- The name of a value, and the names of the tables around it from the outermost on. -/
structure KeyPath where
  parents : List String
  name : String
deriving DecidableEq, Repr

/-- The names of a path in order. -/
def KeyPath.names (path : KeyPath) : List String := path.parents ++ [path.name]

/-- Why a text cannot be read. -/
inductive Error where
  /-- The text does not follow the grammar. -/
  | malformed
  /-- A name is given a value or a table twice. -/
  | redefined (name : String)
  /-- A name stands for a value that is no table, and yet something is put into it. -/
  | notTable (name : String)
  /-- A value has another type than the one that is wanted under a name. -/
  | wrongType (name : String)
deriving DecidableEq, Repr

/-- The text of an error. -/
def Error.message : Error → String
  | malformed => "TOML parse error"
  | redefined name => "TOML parse error, duplicate key " ++ name
  | notTable name => "TOML parse error, not a table: " ++ name
  | wrongType name => "TOML parse error, invalid type of " ++ name

/-- A text, which is what is wanted under a name. -/
def Value.asText (name : String) : Value → Except Error String
  | .text content => .ok content
  | _ => .error (.wrongType name)

/-- An array of texts, which is what is wanted under a name. -/
def Value.asTexts (name : String) : Value → Except Error (List String)
  | .array items => items.mapM (·.asText name)
  | _ => .error (.wrongType name)

/-- The value under a name as it is wanted, or a default if there is none. -/
def field {α : Type} (entries : List (String × Value)) (name : String) (default : α)
    (convert : String → Value → Except Error α) : Except Error α :=
  match entries.lookup name with
  | none => .ok default
  | some value => convert name value

end RuledMarkup.Toml
