import RuledMarkup.Disk
import RuledMarkup.Theme.Writer

/-!
# Saving a theme

A theme is saved to a file.  The directories around the file are made first, and only then is the
text of the theme written.

## Main definitions

* `Theme.save` : saves a theme under a path.
-/

namespace RuledMarkup

/-- Why a theme is not saved. -/
inductive SaveFailure where
  | disk (cause : DiskFailure)
  /-- The theme has no text. -/
  | unwritten (cause : String)
deriving DecidableEq, Repr

namespace Theme

/-- Makes the directories around a path, and puts the text of a theme under the path. -/
def save {σ : Type} (theme : Theme) (path : String) (disk : Disk σ)
    (format : Toml.Format) (before : σ) : Except SaveFailure Unit × σ :=
  match disk.makeRoom path before with
  | (.error cause, after) => (.error (.disk cause), after)
  | (.ok (), between) =>
    match format.write theme.fields theme.tables with
    | .error cause => (.error (.unwritten cause), between)
    | .ok text =>
      match disk.write path text.toUTF8 between with
      | (.error cause, after) => (.error (.disk cause), after)
      | (.ok (), after) => (.ok (), after)

end Theme

end RuledMarkup
