import Concordance.Config.Basic
import Concordance.Glob.Expansion

/-!
# Entry points

The files of a repository with which its documentation starts are given by
patterns seen from its directory.  The patterns are expanded one after the
other; what is no file, and what an excluded pattern matches when seen from
the directory, is left out.  The result is in ascending order, and of paths
with the same components it has the one found first.

How a pattern is expanded is a parameter; `Glob.expansion` is the expansion in
a file system.
-/

namespace Concordance

/-- The files of a repository with which its documentation starts. -/
structure EntryPoints where
  repository : String
  files : List Path
  deriving DecidableEq, Repr

/-- What can go wrong while entry points are selected. -/
inductive EntryPointError where
  | invalidPattern (repository pattern : String) (fault : Glob.Fault)
  | unreadable (path : Path) (cause : OsError)
  | noEntryPoints (repository : String)
  deriving DecidableEq, Repr

/-- The wording of an error. -/
def EntryPointError.message : EntryPointError → String
  | .invalidPattern repository pattern fault =>
      "invalid glob pattern '" ++ pattern ++ "' for repository '" ++ repository
        ++ "': " ++ fault.message
  | .unreadable path cause =>
      "failed to read " ++ path.text ++ " while expanding entry points: "
        ++ cause.message
  | .noEntryPoints repository =>
      "entry point patterns of repository '" ++ repository ++ "' matched no files"

/-- The wording of the cause of an error, if it has one. -/
def EntryPointError.cause? : EntryPointError → Option String
  | .invalidPattern _ _ fault => some fault.message
  | .unreadable _ cause => some cause.message
  | .noEntryPoints _ => none

/-- The wordings of an error and of its cause. -/
def EntryPointError.chain (error : EntryPointError) : List String :=
  error.message :: error.cause?.toList

/-- A directory that could not be read. -/
structure Unreadable where
  directory : Path
  cause : OsError
  deriving DecidableEq, Repr

/-- A way to expand a pattern: the paths that match it, in order, or why it is no pattern. -/
abbrev Expansion := String → Except Glob.Fault (List (Except Unreadable Path))

/-- The expansion in a file system, of which all directories can be read. -/
def Glob.expansion (files : FileSystem) (current : Location) : Expansion :=
  fun pattern => do
    let route ← Glob.Route.ofText pattern
    pure ((route.expand files current).map .ok)

/-- What is to be selected: the directory of a repository and its patterns. -/
structure Selection where
  repository : String
  root : Path
  included : List String
  excluded : List String
  deriving DecidableEq, Repr

namespace Selection

/-- The selection that a repository asks for, once it lies in some directory. -/
def ofRepository (repository : Repository) (name : String) (root : Path) : Selection :=
  ⟨name, root, repository.entryPoints, repository.exclude⟩

/-- Add a path to an ascending list, unless one with the same components is there. -/
def insertPath (path : Path) : List Path → List Path
  | [] => [path]
  | first :: rest =>
      if path.lt first then path :: first :: rest
      else if path.same first then first :: rest
      else first :: insertPath path rest

/-- The patterns for what is excluded. -/
def excludedPatterns (selection : Selection) :
    Except EntryPointError (List Glob.Pattern) :=
  selection.excluded.mapM fun pattern =>
    (Glob.Pattern.ofText pattern).mapError
      (.invalidPattern selection.repository pattern)

/-- The path as the excluded patterns see it. -/
def relative (selection : Selection) (path : Path) : Path :=
  (path.stripBase? selection.root).getD path

/-- Whether a path is left out. -/
def isExcluded
    (selection : Selection)
    (excluded : List Glob.Pattern)
    (path : Path) : Bool :=
  excluded.any fun pattern => pattern.accepts (selection.relative path).text

/-- Add an expanded path to the files, if it is one of them. -/
def add
    (selection : Selection)
    (isFile : Path → Bool)
    (excluded : List Glob.Pattern)
    (found : List Path) :
    Except Unreadable Path → Except EntryPointError (List Path)
  | .error unreadable => .error (.unreadable unreadable.directory unreadable.cause)
  | .ok path =>
      if isFile path && !selection.isExcluded excluded path then
        .ok (insertPath path found)
      else .ok found

/-- Add the files of a pattern. -/
def addPattern
    (selection : Selection)
    (isFile : Path → Bool)
    (expand : Expansion)
    (excluded : List Glob.Pattern)
    (found : List Path)
    (pattern : String) : Except EntryPointError (List Path) := do
  let paths ← (expand (selection.root.joinText pattern).text).mapError
    (.invalidPattern selection.repository pattern)
  paths.foldlM (selection.add isFile excluded) found

/-- The entry points, for a way to tell files and to expand patterns. -/
def select
    (selection : Selection)
    (isFile : Path → Bool)
    (expand : Expansion) : Except EntryPointError EntryPoints := do
  let excluded ← selection.excludedPatterns
  let files ← selection.included.foldlM
    (selection.addPattern isFile expand excluded) []
  if files.isEmpty then throw (.noEntryPoints selection.repository)
  else pure ⟨selection.repository, files⟩

/-- The entry points in a file system. -/
def selectIn
    (selection : Selection)
    (files : FileSystem)
    (current : Location) : Except EntryPointError EntryPoints :=
  selection.select (files.isFile current) (Glob.expansion files current)

end Selection

end Concordance
