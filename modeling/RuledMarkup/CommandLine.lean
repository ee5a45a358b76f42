import RuledMarkup.Node.Inspect
import RuledMarkup.Node.Render
import RuledMarkup.Theme.Load
import RuledMarkup.Viewer.Lines
import RuledMarkup.Viewer.Rules

/-!
# Command line

The viewer is called with the path of a file.  An option names a theme, and another one asks for the
tree of the document in place of its text.

## Main definitions

* `Arguments.read` : the arguments of a call.
* `loadTheme` : the theme of a call.
* `run` : what a call prints.
-/

namespace RuledMarkup.CommandLine

/-- What a call asks for. -/
structure Arguments where
  /-- Is the tree of the document to be shown? -/
  tree : Bool := false
  /-- The path of a theme. -/
  theme : Option String := none
  /-- The path of the document. -/
  file : String
deriving DecidableEq, Repr

/-- Why arguments are refused. -/
inductive ArgumentError where
  | themeWithoutPath
  | unknownOption (option : String)
  | secondFile
  | noFile
deriving DecidableEq, Repr

/-- The text of a refusal. -/
def ArgumentError.message : ArgumentError → String
  | themeWithoutPath => "--theme needs a path"
  | unknownOption option => "unknown option " ++ option
  | secondFile => "only one file can be viewed at a time"
  | noFile => "no file given"

namespace Arguments

/-- The arguments of a call after those that have been read, from left to right. -/
def readFrom (tree : Bool) (theme file : Option String) :
    List String → Except ArgumentError Arguments
  | [] =>
    match file with
    | none => .error .noFile
    | some file => .ok { tree, theme, file }
  | argument :: rest =>
    if argument = "--tree" then readFrom true theme file rest
    else if argument = "--theme" then
      match rest with
      | [] => .error .themeWithoutPath
      | path :: rest => readFrom tree (some path) file rest
    else if argument.startsWith "--" then .error (.unknownOption argument)
    else if file.isSome then .error .secondFile
    else readFrom tree theme (some argument) rest

/-- The arguments of a call. -/
def read (arguments : List String) : Except ArgumentError Arguments :=
  readFrom false none none arguments

end Arguments

/-- Why a call fails, apart from its arguments. -/
inductive Failure where
  | theme (cause : ThemeError)
  | noTheme (path : String)
  | unreadable (path : String) (cause : ReadFailure)
  | unparsed (path : String) (cause : ParseError)

namespace Failure

/-- The text of a failure. -/
def message : Failure → String
  | theme cause => cause.message
  | noTheme path => "theme file '" ++ path ++ "' does not exist"
  | unreadable path _ => "failed to read '" ++ path ++ "'"
  | unparsed path _ => "failed to parse '" ++ path ++ "'"

/-- The text of the cause of a failure, if it has one. -/
def cause? : Failure → Option String
  | theme cause => some cause.cause
  | noTheme _ => none
  | unreadable _ cause => some cause.message
  | unparsed _ cause => some cause.message

/-- A failure with its cause. -/
def report (failure : Failure) : String :=
  "Error: " ++ failure.message ++ "\n" ++
    match failure.cause? with
    | none => ""
    | some cause => "\nCaused by:\n    " ++ cause ++ "\n"

end Failure

/-- The files as a call sees them. -/
structure Files where
  /-- The path of the home directory. -/
  home : String
  /-- What is found under a path. -/
  look : String → FileState

/-- The path of the theme of a user. -/
def userTheme (home : String) : String := home ++ "/" ++ Theme.configFile

/-- The paths of the files that a call looks at. -/
def Arguments.paths (arguments : Arguments) (home : String) : List String :=
  [arguments.theme.getD (userTheme home), arguments.file]

/-- The theme with a path, which must be there; without a path that of the user, or the default. -/
def loadTheme (files : Files) (path : Option String) : Except Failure Theme :=
  let load (path : String) : Except Failure (Option Theme) :=
    (Theme.load? path (files.look path)).mapError .theme
  match path with
  | some path => do
    match ← load path with
    | none => .error (.noTheme path)
    | some theme => .ok theme
  | none => return (← load (userTheme files.home)).getD {}

/-- A document with the theme in which it is shown. -/
structure View where
  theme : Theme
  forest : List (Node Theme Terminal.Attribute)

/-- The lines in which a document is shown. -/
def View.lines (view : View) : List Viewer.Line :=
  Viewer.toLines (Forest.renderText view.theme view.forest)

/-- Loads the theme and then the document of a call. -/
def open? (files : Files) (arguments : Arguments) : Except Failure View := do
  let theme ← loadTheme files arguments.theme
  let source ← (files.look arguments.file).text.mapError (.unreadable arguments.file)
  let forest ← (Viewer.parse theme source).value.mapError (.unparsed arguments.file)
  return { theme, forest }

/-- What a call leaves behind. -/
structure Outcome where
  code : Nat
  stdout : String := ""
  stderr : String := ""
deriving DecidableEq, Repr

/-- How the viewer is called. -/
def usage (program : String) : String :=
  "Usage: " ++ program ++ " [--tree] [--theme <path>] <file>\n"

/-- The tree of a document, or its lines. -/
def View.show (view : View) (tree : Bool) : String :=
  if tree then Forest.dump Terminal.Attribute.inspect view.forest
  else String.join (view.lines.map fun line => line.text ++ "\n")

/-- What a call with some arguments prints. -/
def run (program : String) (files : Files) (arguments : List String) : Outcome :=
  match Arguments.read arguments with
  | .error error =>
    { code := 1, stderr := "Error: " ++ error.message ++ "\n" ++ usage program }
  | .ok arguments =>
    match open? files arguments with
    | .error failure => { code := 1, stderr := failure.report }
    | .ok view => { code := 0, stdout := view.show arguments.tree }

end RuledMarkup.CommandLine
