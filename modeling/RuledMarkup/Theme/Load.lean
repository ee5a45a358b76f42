import RuledMarkup.FileState
import RuledMarkup.Theme.Reader

/-!
# Theme files

A theme file may be missing, and what is found in its place may be no theme.

## Main definitions

* `Theme.load?` : the theme in a file.
* `Theme.configFile` : where the theme of a user is kept.
-/

namespace RuledMarkup

/-- Why a theme cannot be loaded. -/
inductive ThemeError where
  | unreadable (path : String) (cause : ReadFailure)
  | invalid (path : String) (cause : Toml.Error)
deriving DecidableEq, Repr

namespace ThemeError

/-- The text of the cause of an error. -/
def cause : ThemeError → String
  | unreadable _ cause => cause.message
  | invalid _ cause => cause.message

/-- The text of an error, with its cause. -/
def message : ThemeError → String
  | unreadable path cause => "Failed to read theme file at " ++ path ++ ": " ++ cause.message
  | invalid path cause => "Failed to parse theme file at " ++ path ++ ": " ++ cause.message

end ThemeError

namespace Theme

/-- The theme in a file, if there is a file. -/
def load? (path : String) (state : FileState) (format : Toml.Format := .standard) :
    Except ThemeError (Option Theme) :=
  if state.isPresent then
    match state.text with
    | .error cause => .error (.unreadable path cause)
    | .ok text =>
      match read text format with
      | .error cause => .error (.invalid path cause)
      | .ok theme => .ok (some theme)
  else .ok none

/-- Where the theme of a user is kept, below the home directory. -/
def configFile : String := ".config/spanmark/theme.toml"

end Theme

end RuledMarkup
