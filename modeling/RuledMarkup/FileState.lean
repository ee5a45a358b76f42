/-!
# What is found under a path

## Main definitions

* `FileState` : what is found under a path.
* `FileState.text` : the text of a file.
-/

namespace RuledMarkup

/-- Why a file cannot be read. -/
inductive ReadFailure where
  | missing
  /-- The path leads through a file. -/
  | notDirectory
  | isDirectory
  /-- The bytes are not those of a text. -/
  | notText
deriving DecidableEq, Repr

/-- The text of a failure. -/
def ReadFailure.message : ReadFailure → String
  | missing => "No such file or directory (os error 2)"
  | notDirectory => "Not a directory (os error 20)"
  | isDirectory => "Is a directory (os error 21)"
  | notText => "stream did not contain valid UTF-8"

/-- What is found under a path. -/
inductive FileState where
  | missing
  /-- The path leads through a file. -/
  | notDirectory
  | directory
  | file (bytes : ByteArray)

namespace FileState

/-- The file that holds a text. -/
def ofText (text : String) : FileState := file text.toUTF8

/-- Is there something under the path? -/
def isPresent : FileState → Bool
  | missing => false
  | notDirectory => false
  | directory => true
  | file _ => true

/-- The text of a file. -/
def text : FileState → Except ReadFailure String
  | missing => .error .missing
  | notDirectory => .error .notDirectory
  | directory => .error .isDirectory
  | file bytes =>
    match String.fromUTF8? bytes with
    | none => .error .notText
    | some text => .ok text

end FileState

end RuledMarkup
