import RuledMarkup.FileState

/-!
# Disks

What becomes of a change is up to the disk: it has states of some kind, and each change may fail and
may lead to another state.

## Main definitions

* `Path.parent?` : the path of the directory around a path.
* `Disk` : what can be asked of a disk.
-/

namespace RuledMarkup

/-! ### Paths -/

namespace Path

/-- The names between the separators of a path. -/
def names : List Char → List (List Char)
  | [] => [[]]
  | c :: cs =>
    if c = '/' then [] :: names cs
    else
      match names cs with
      | [] => [[c]]
      | name :: rest => (c :: name) :: rest

/-- The names of a path from the last one back, without those at the end that lead nowhere. -/
def trim (reversed : List (List Char)) : List (List Char) :=
  reversed.dropWhile fun name => name.isEmpty || name = ['.']

/-- The path of what is around a path; the root and the empty path have nothing around them.  A dot
at the beginning counts as a name. -/
def parent? (path : String) : Option String :=
  let (front, behind) : List Char × List (List Char) :=
    match path.toList with
    | '/' :: cs => (['/'], names cs)
    | ['.'] => (['.'], [])
    | '.' :: '/' :: cs => (['.'], [] :: names cs)
    | cs => ([], names cs)
  match trim behind.reverse with
  | [] => if front = ['.'] then some "" else none
  | _ :: rest => some (String.ofList (front ++ ['/'].intercalate (trim rest).reverse))

example : ["a/b", "a", "/a", "./a//b/.", "/", ""].map parent? =
    [some "a", some "", some "/", some "./a", none, none] := by decide

end Path

/-! ### Disks -/

/-- Why a change of a disk fails, in the words of the disk. -/
abbrev DiskFailure := String

/-- A disk whose states are of some kind.  A change may fail, and also then it leaves some state. -/
structure Disk (σ : Type) where
  /-- What is found under a path. -/
  look : String → σ → FileState
  /-- Makes a directory, and those around it, where there is none. -/
  createDirs : String → σ → Except DiskFailure Unit × σ
  /-- Puts a file under a path, in the place of one that was there. -/
  write : String → ByteArray → σ → Except DiskFailure Unit × σ

/-- Makes the directories around a path. -/
def Disk.makeRoom {σ : Type} (disk : Disk σ) (path : String) (before : σ) :
    Except DiskFailure Unit × σ :=
  match Path.parent? path with
  | none => (.ok (), before)
  | some parent => disk.createDirs parent before

end RuledMarkup
