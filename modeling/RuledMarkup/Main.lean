import RuledMarkup.CommandLine

/-!
# The program

Reads the files that a call looks at and prints what the call leaves behind.
-/

namespace RuledMarkup.CommandLine

/-- What is found under a path. -/
def look (path : String) : IO FileState := do
  match ← (IO.FS.readBinFile path).toBaseIO with
  | .ok bytes => return .file bytes
  | .error (.inappropriateType _ 21 _) => return .directory
  | .error (.noFileOrDirectory ..) => return .missing
  | .error _ => return .notDirectory

/-- What is found under the paths of the arguments of a call, if they are in order. -/
def lookAll (home : String) (arguments : List String) : IO (List (String × FileState)) :=
  match Arguments.read arguments with
  | .error _ => return []
  | .ok arguments => (arguments.paths home).mapM fun path => return (path, ← look path)

end RuledMarkup.CommandLine

open RuledMarkup.CommandLine in
/-- Runs the viewer on the arguments of a call. -/
def main (arguments : List String) : IO UInt32 := do
  let home := (← IO.getEnv "HOME").getD ""
  let found ← lookAll home arguments
  let files : Files := { home, look := fun path => (found.lookup path).getD .missing }
  let program := (← IO.appPath).fileName.getD ""
  let outcome := run program files arguments
  (← IO.getStdout).putStr outcome.stdout
  (← IO.getStderr).putStr outcome.stderr
  return outcome.code.toUInt32
