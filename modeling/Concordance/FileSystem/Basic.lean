import Concordance.Path

/-!
# A file system as a value

A file system is a finite map from locations to files and directories; a
location is the list of names on the way down from the root, which is always
a directory.  There are no links, so a location names at most one entry and
an entry lies at one location.

A path is resolved piece by piece from the root or from the current
directory.  The last piece may name something that does not exist yet; then
the path tells where it would be.  All operations give the new file system,
or the error that the operating system would report and no change.
-/

namespace Concordance

/-- The names on the way from the root down to a place. -/
abbrev Location := List String

/-- The errors of the operating system. -/
inductive OsError where
  | notFound
  | permissionDenied
  | alreadyExists
  | notADirectory
  | isADirectory
  | notEmpty
  | invalidArgument
  | nameTooLong
  | badExecutable
  /-- The content of a file is not a text. -/
  | notText
  /-- A path that must not be empty is empty. -/
  | emptyPath
  /-- A path contains the character zero. -/
  | zeroInPath
  /-- A command or one of its arguments contains the character zero. -/
  | zeroInCommand
  deriving DecidableEq, Repr

/-- The wording of an error. -/
def OsError.message : OsError → String
  | .notFound => "No such file or directory (os error 2)"
  | .permissionDenied => "Permission denied (os error 13)"
  | .alreadyExists => "File exists (os error 17)"
  | .notADirectory => "Not a directory (os error 20)"
  | .isADirectory => "Is a directory (os error 21)"
  | .invalidArgument => "Invalid argument (os error 22)"
  | .nameTooLong => "File name too long (os error 36)"
  | .notEmpty => "Directory not empty (os error 39)"
  | .badExecutable => "Exec format error (os error 8)"
  | .notText => "stream did not contain valid UTF-8"
  | .emptyPath => "cannot make an empty path absolute"
  | .zeroInPath => "file name contained an unexpected NUL byte"
  | .zeroInCommand => "nul byte found in provided data"

/-- The content of a file: a text, or bytes that are none. -/
inductive Content where
  | text (text : String)
  | binary (bytes : List UInt8)
  deriving DecidableEq, Repr

namespace Content

/-- The content with the given bytes. -/
def ofBytes (bytes : List UInt8) : Content :=
  match String.fromUTF8? (ByteArray.mk bytes.toArray) with
  | some written => .text written
  | none => .binary bytes

/-- The bytes of a content. -/
def bytes : Content → List UInt8
  | text written => written.toUTF8.toList
  | binary raw => raw

/-- One content behind another. -/
def append : Content → Content → Content
  | text left, text right => text (left ++ right)
  | left, right => ofBytes (left.bytes ++ right.bytes)

end Content

/-- What lies at a location. -/
inductive Entry where
  | directory
  | file (content : Content) (executable : Bool)
  deriving DecidableEq, Repr

/-- A file system: the entries below the root, each with its location. -/
structure FileSystem where
  entries : List (Location × Entry)
  deriving DecidableEq, Repr

namespace FileSystem

/-- The file system that has only a root. -/
def empty : FileSystem := ⟨[]⟩

/-- What lies at a location. -/
def entry? (files : FileSystem) (location : Location) : Option Entry :=
  if location = [] then some .directory
  else files.entries.lookup location

/-- Put an entry at a location, in place of the one that lies there. -/
def put (files : FileSystem) (location : Location) (entry : Entry) : FileSystem :=
  ⟨(location, entry) :: files.entries.filter fun old => old.1 != location⟩

/-- Remove what lies at a location and everything below it. -/
def prune (files : FileSystem) (location : Location) : FileSystem :=
  ⟨files.entries.filter fun old => !location.isPrefixOf old.1⟩

/-- The name that a location has in a directory, if it lies directly in it. -/
def nameIn? (directory location : Location) : Option String :=
  match directory.isPrefixOf? location with
  | some [name] => some name
  | _ => none

/-- The names in a directory, in ascending order. -/
def names (files : FileSystem) (directory : Location) : List String :=
  (files.entries.filterMap fun entry => nameIn? directory entry.1).mergeSort

/-! ### Resolving a path -/

/-- Where a path leads. -/
inductive Place where
  /-- To something that exists. -/
  | existing (location : Location) (entry : Entry)
  /-- To a name that an existing directory does not have. -/
  | absent (directory : Location) (name : String)
  deriving DecidableEq, Repr

/-- The greatest number of bytes of a name. -/
def nameLimit : Nat := 255

/-- Follow one piece of a path. -/
def follow (files : FileSystem) : Place → String → Except OsError Place
  | .existing location entry, piece =>
      match entry with
      | .file .. => .error .notADirectory
      | .directory =>
          if piece = "" ∨ piece = "." then .ok (.existing location entry)
          else if piece = ".." then .ok (.existing location.dropLast .directory)
          else if nameLimit < piece.utf8ByteSize then .error .nameTooLong
          else
            match files.entry? (location ++ [piece]) with
            | some entry => .ok (.existing (location ++ [piece]) entry)
            | none => .ok (.absent location piece)
  | .absent directory name, piece =>
      if piece = "" then .ok (.absent directory name)
      else .error .notFound

/-- Follow a path from a current directory. -/
def resolve
    (files : FileSystem)
    (current : Location)
    (path : Path) : Except OsError Place :=
  if path.text.toList.contains '\x00' then .error .zeroInPath
  else if path = Path.empty then .error .notFound
  else
    let start := if path.rooted then [] else current
    match files.entry? start with
    | some entry => path.pieces.foldlM files.follow (.existing start entry)
    | none => .error .notFound

/-- The entry to which a path leads. -/
def find? (files : FileSystem) (current : Location) (path : Path) :
    Option (Location × Entry) :=
  match files.resolve current path with
  | .ok (.existing location entry) => some (location, entry)
  | _ => none

/-- Whether a path leads to something. -/
def exists? (files : FileSystem) (current : Location) (path : Path) : Bool :=
  (files.find? current path).isSome

/-- Whether a path leads to a file. -/
def isFile (files : FileSystem) (current : Location) (path : Path) : Bool :=
  match files.find? current path with
  | some (_, .file ..) => true
  | _ => false

/-- Whether a path leads to a directory. -/
def isDirectory (files : FileSystem) (current : Location) (path : Path) : Bool :=
  match files.find? current path with
  | some (_, .directory) => true
  | _ => false

/-! ### Reading and writing -/

/-- The content of a file. -/
def read
    (files : FileSystem)
    (current : Location)
    (path : Path) : Except OsError Content := do
  match ← files.resolve current path with
  | .existing _ (.file content _) => pure content
  | .existing _ .directory => throw .isADirectory
  | .absent .. => throw .notFound

/-- The text of a file. -/
def readText
    (files : FileSystem)
    (current : Location)
    (path : Path) : Except OsError String := do
  match ← files.read current path with
  | .text text => pure text
  | .binary _ => throw .notText

/--
Where a file that is to be written lies, and whether it can be executed.  A
slash behind its name asks for a directory.
-/
def writable
    (files : FileSystem)
    (current : Location)
    (path : Path) : Except OsError (Location × Bool) := do
  let place ← files.resolve current path.withoutEndSlash
  if path.endsWithSlash then throw .isADirectory
  match place with
  | .existing location (.file _ executable) => pure (location, executable)
  | .existing _ .directory => throw .isADirectory
  | .absent directory name => pure (directory ++ [name], false)

/-- Write a file, in place of its old content. -/
def write
    (files : FileSystem)
    (current : Location)
    (path : Path)
    (content : Content) : Except OsError FileSystem := do
  let (location, executable) ← files.writable current path
  pure (files.put location (.file content executable))

/-- Write behind the content of a file. -/
def appendTo
    (files : FileSystem)
    (current : Location)
    (path : Path)
    (content : Content) : Except OsError FileSystem := do
  let (location, executable) ← files.writable current path
  let old := match files.entry? location with
    | some (.file old _) => old
    | _ => .text ""
  pure (files.put location (.file (old.append content) executable))

/-- Write a text into a file. -/
def writeText
    (files : FileSystem)
    (current : Location)
    (path : Path)
    (text : String) : Except OsError FileSystem :=
  files.write current path (.text text)

/-! ### Directories -/

/-- Make one directory; its name may be followed by slashes, whatever has the name already. -/
def makeDirectory
    (files : FileSystem)
    (current : Location)
    (path : Path) : Except OsError FileSystem := do
  match ← files.resolve current path.withoutEndSlash with
  | .existing .. => throw .alreadyExists
  | .absent directory name => pure (files.put (directory ++ [name]) .directory)

/-- A step that may fail and may change the file system in either case. -/
abbrev Step (ε α : Type) := ExceptT ε (StateM FileSystem) α

/-- The step that looks at the file system and changes nothing. -/
def Step.look {ε α : Type} (view : FileSystem → Except ε α) : Step ε α := do
  ExceptT.mk (pure (view (← get)))

/-- The step that changes the file system if it succeeds. -/
def Step.change {ε : Type} (change : FileSystem → Except ε FileSystem) : Step ε Unit := do
  match change (← get) with
  | .ok changed => set changed
  | .error error => throw error

/-- The step with its errors explained. -/
def Step.explain {ε δ α : Type} (explain : ε → δ) (step : Step ε α) : Step δ α :=
  ExceptT.mk do pure ((← step.run).mapError explain)

/--
Make the first of several directories, each the child of the next one, and
before it those of the others that are missing.
-/
def makeChain (current : Location) : List Path → Step OsError Unit
  | [] => pure ()
  | path :: parents => do
      if path = Path.empty then return
      match (← get).makeDirectory current path with
      | .ok made => set made
      | .error .notFound => do
          makeChain current parents
          match (← get).makeDirectory current path with
          | .ok made => set made
          | .error error =>
              if (← get).isDirectory current path then return else throw error
      | .error error =>
          if (← get).isDirectory current path then return else throw error

/-- Make a directory and those above it that are missing. -/
def makeDirectories (current : Location) (path : Path) : Step OsError Unit :=
  makeChain current path.ancestors

/-- Remove a directory with everything in it. -/
def removeDirectory
    (files : FileSystem)
    (current : Location)
    (path : Path) : Except OsError FileSystem := do
  match ← files.resolve current path with
  | .existing location .directory => pure (files.prune location)
  | .existing _ (.file ..) => throw .notADirectory
  | .absent .. => throw .notFound

end FileSystem

end Concordance
