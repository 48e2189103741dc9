import Concordance.FileSystem.Basic
import Concordance.Glob.Pattern

/-!
# Expanding a pattern

A pattern is expanded in a file system piece by piece: each piece between
slashes is matched against the names of one directory.  A piece without
wildcards is not matched but followed, so that the paths found keep its text.
The double star goes down through all directories below; at the end of a
pattern it yields directories only.

Names with a leading dot are matched like others.  The entries `.` and `..`,
which no directory lists, are offered to a piece that begins with a dot.
-/

namespace Concordance

/-- The greatest number of names in a location. -/
def FileSystem.depth (files : FileSystem) : Nat :=
  files.entries.foldl (fun depth entry => max depth entry.1.length) 0

namespace Glob

/-- The path of the current directory. -/
def here : Path := Path.ofText "."

/-- The path of a name in a directory; the current directory is not mentioned. -/
def below (directory : Path) (name : String) : Path :=
  if directory.same here then Path.ofText name else directory.joinText name

/-- The pieces of a pattern between slashes; a slash at the end adds none. -/
def pieces (text : String) : List String :=
  let all := Text.split '/' text
  if all.getLast? = some "" then all.dropLast else all

/-- Leave one of several double stars in a row. -/
def collapse : List Pattern → List Pattern
  | first :: second :: rest =>
      if first.isRecursive && second.isRecursive then collapse (second :: rest)
      else first :: collapse (second :: rest)
  | patterns => patterns

/-- A pattern as it is expanded: from the root or from the current directory, piece by piece. -/
structure Route where
  rooted : Bool
  patterns : List Pattern
  /-- Only directories are wanted. -/
  directoriesOnly : Bool
  deriving DecidableEq, Repr

/-- The route that a pattern describes. -/
def Route.ofText (text : String) : Except Fault Route := do
  let _ ← Pattern.ofText text
  let rooted := text.toList.head? == some '/'
  let body := if rooted then String.ofList (text.toList.drop 1) else text
  let written := if body = "" then [""] else pieces body
  let patterns ← written.mapM Pattern.ofText
  pure ⟨rooted, collapse patterns, text.toList.getLast? == some '/'⟩

section Walk

variable (files : FileSystem) (current : Location)

/-- The names in the directory to which a path leads. -/
def namesIn (directory : Path) : List String :=
  match files.find? current directory with
  | some (location, .directory) => files.names location
  | _ => []

/-- Collect what is found at each entry below a directory, some number of levels deep. -/
def descend (visit : Path → String → List Path) : (depth : Nat) → Path → List Path
  | 0, _ => []
  | depth + 1, directory =>
      (namesIn files current directory).flatMap fun name =>
        let path := below directory name
        visit path name ++ descend visit depth path

/-- The entries of every directory itself that a pattern asks for. -/
def specialNames (directory : Path) (pattern : Pattern) : List String :=
  if files.isDirectory current directory && pattern.startsWithDot then
    ["..", "."].filter fun name => pattern.accepts name
  else []

/-- Whether the piece without wildcards can be followed from a directory. -/
def canFollow (directory : Path) (name : String) : Bool :=
  if name = "." ∨ name = ".." then files.isDirectory current directory
  else files.exists? current (below directory name)

/-- The paths that pieces yield from a directory on. -/
def expandFrom : List Pattern → Path → List Path
  | [], path => [path]
  | pattern :: patterns, directory =>
      match pattern.literal? with
      | some name =>
          if canFollow files current directory name then
            expandFrom patterns (below directory name)
          else []
      | none =>
          if pattern.isRecursive then
            match patterns with
            | [] =>
                descend files current
                  (fun path _ => if files.isDirectory current path then [path] else [])
                  files.depth directory
            | next :: patterns =>
                descend files current
                  (fun path name =>
                    if next.accepts name then expandFrom patterns path else [])
                  files.depth directory
          else
            (specialNames files current directory pattern).flatMap
                (fun name => expandFrom patterns (directory.joinText name))
              ++ (namesIn files current directory).flatMap fun name =>
                if pattern.accepts name then
                  expandFrom patterns (below directory name)
                else []

/-- The paths that a route yields. -/
def Route.expand (route : Route) : List Path :=
  let start := if route.rooted then ⟨true, []⟩ else here
  let found := expandFrom files current route.patterns start
  if route.directoriesOnly then
    found.filter fun path => files.isDirectory current path
  else found

end Walk

end Glob

end Concordance
