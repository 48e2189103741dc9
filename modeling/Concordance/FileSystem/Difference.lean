import Concordance.FileSystem.Basic

/-!
# What has changed in a file system

The changes that lead from one file system to another: what is no longer
there is removed, from the outermost location on, and what is new or
different is written, each directory before what lies in it.
-/

namespace Concordance.FileSystem

/-- A change of a file system. -/
inductive Change where
  /-- Whatever lies at or below a location goes. -/
  | remove (location : Location)
  | makeDirectory (location : Location)
  | writeFile (location : Location) (content : Content) (executable : Bool)
  deriving DecidableEq, Repr

/-- Whether a location lies at or below one that a change removes. -/
def Change.covers (location : Location) : Change → Bool
  | remove removed => removed.isPrefixOf location
  | _ => false

/-- The entries of a file system, each directory before what lies in it. -/
def outermostFirst (files : FileSystem) : List (Location × Entry) :=
  files.entries.mergeSort fun left right => left.1.length ≤ right.1.length

/-- Whether an entry cannot be turned into another one by writing. -/
def mustGo : Entry → Option Entry → Bool
  | _, none => true
  | .directory, some (.file ..) | .file .., some .directory => true
  | _, _ => false

/-- The removals that lead from one file system to another. -/
def removals (before after : FileSystem) : List Change :=
  before.outermostFirst.foldl
    (fun changes (location, entry) =>
      if changes.any (Change.covers location) then changes
      else if mustGo entry (after.entry? location) then changes ++ [.remove location]
      else changes)
    []

/-- The change that writes an entry. -/
def writing (location : Location) : Entry → Change
  | .directory => .makeDirectory location
  | .file content executable => .writeFile location content executable

/-- The changes that lead from one file system to another. -/
def changes (before after : FileSystem) : List Change :=
  removals before after
    ++ (after.outermostFirst.filter fun (location, entry) =>
        before.entry? location != some entry).map fun (location, entry) =>
          writing location entry

end Concordance.FileSystem
