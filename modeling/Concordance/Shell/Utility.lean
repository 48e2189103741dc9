import Concordance.Shell.Expansion

/-!
# Utilities

The programs that every system has, as far as they work on files and texts.
A utility gets its arguments, its input and the directory in which it runs;
it answers with the changed file system, a status and what it prints.
-/

namespace Concordance

/-- Put a copy of everything at and below one location at another one. -/
def FileSystem.copyTree (files : FileSystem) (source target : Location) : FileSystem :=
  files.entries.foldl
    (fun copied entry =>
      match source.isPrefixOf? entry.1 with
      | some below => copied.put (target ++ below) entry.2
      | none => copied)
    files

namespace Shell

/-- What a utility did. -/
structure Outcome where
  files : FileSystem
  status : Nat := 0
  output : Content := .text ""

/-- A program that works on files and texts. -/
abbrev Utility :=
  (directory : Location) → (args : List String) → (input : Content) →
    FileSystem → Outcome

namespace Utility

/--
Do the same for each of several paths; one that fails does not keep the
others from being done.
-/
def forEachPath
    (failing : Nat)
    (change : FileSystem → Path → Except OsError FileSystem)
    (paths : List String)
    (files : FileSystem) : Outcome :=
  paths.foldl
    (fun outcome path =>
      match change outcome.files (Path.ofText path) with
      | .ok changed => { outcome with files := changed }
      | .error _ => { outcome with status := failing })
    { files := files }

/-- The letters of the options, and the arguments that are none. -/
def splitOptions : List String → List Char × List String
  | [] => ([], [])
  | arg :: args =>
      match arg.toList with
      | ['-', '-'] => ([], args)
      | '-' :: letter :: letters =>
          let (others, operands) := splitOptions args
          (letter :: letters ++ others, operands)
      | _ =>
          let (others, operands) := splitOptions args
          (others, arg :: operands)

/-- Make directories, with the option `p` also those above them. -/
def makeDirectories : Utility := fun directory args _ files =>
  let (options, paths) := splitOptions args
  forEachPath 1
    (fun files path =>
      if options.contains 'p' then
        match Id.run ((FileSystem.makeDirectories directory path).run files) with
        | (.ok (), made) => .ok made
        | (.error error, _) => .error error
      else files.makeDirectory directory path)
    paths files

/-- Remove empty directories. -/
def removeDirectories : Utility := fun directory args _ files =>
  forEachPath 1
    (fun files path => do
      match ← files.resolve directory path with
      | .existing location .directory =>
          if (files.names location).isEmpty then pure (files.prune location)
          else throw .notEmpty
      | .existing .. => throw .notADirectory
      | .absent .. => throw .notFound)
    (splitOptions args).2 files

/-- Remove files, with the option `r` also directories, with `f` also what is not there. -/
def remove : Utility := fun directory args _ files =>
  let (options, paths) := splitOptions args
  let recursive := options.contains 'r' || options.contains 'R'
  forEachPath 1
    (fun files path =>
      match files.resolve directory path with
      | .ok (.existing location (.file ..)) => .ok (files.prune location)
      | .ok (.existing location .directory) =>
          if recursive then .ok (files.prune location) else .error .isADirectory
      | _ => if options.contains 'f' then .ok files else .error .notFound)
    paths files

/-- Make empty files where there are none. -/
def touch : Utility := fun directory args _ files =>
  forEachPath 1
    (fun files path =>
      if files.exists? directory path then .ok files
      else files.writeText directory path "")
    (splitOptions args).2 files

/-- The last component of a path. -/
def lastName (path : Path) : String :=
  match path.components.getLast? with
  | some (.name name) => name
  | some .parent => ".."
  | _ => "."

/-- The location at which a copy is put: in a directory if the target is one. -/
def targetLocation
    (files : FileSystem)
    (directory : Location)
    (source target : Path) : Except OsError Location := do
  match ← files.resolve directory target with
  | .existing location .directory => pure (location ++ [lastName source])
  | .existing location (.file ..) => pure location
  | .absent location name => pure (location ++ [name])

/-- Copy what lies at a path, directories only if that is wanted. -/
def copyOne
    (recursive : Bool)
    (directory : Location)
    (target source : Path)
    (files : FileSystem) : Except OsError FileSystem := do
  let place ← targetLocation files directory source target
  match ← files.resolve directory source with
  | .absent .. => throw .notFound
  | .existing location (.file content executable) =>
      if location = place then throw .invalidArgument
      match files.entry? place with
      | some .directory => throw .isADirectory
      | some (.file _ kept) => pure (files.put place (.file content kept))
      | none => pure (files.put place (.file content executable))
  | .existing location .directory =>
      if !recursive then throw .isADirectory
      else if location.isPrefixOf place then throw .invalidArgument
      else pure (files.copyTree location place)

/-- Move what lies at a path. -/
def moveOne
    (directory : Location)
    (target source : Path)
    (files : FileSystem) : Except OsError FileSystem := do
  let place ← targetLocation files directory source target
  match ← files.resolve directory source with
  | .absent .. => throw .notFound
  | .existing location _ =>
      if location.isPrefixOf place then throw .invalidArgument
      else pure ((files.copyTree location place).prune location)

/-- Copy or move several paths to the last one. -/
def transfer
    (one : Path → Path → FileSystem → Except OsError FileSystem)
    (directory : Location)
    (operands : List String)
    (files : FileSystem) : Outcome :=
  match operands.getLast? with
  | none => { files := files, status := 1 }
  | some last =>
      let sources := operands.dropLast
      let target := Path.ofText last
      if sources.isEmpty || 1 < sources.length && !files.isDirectory directory target then
        { files := files, status := 1 }
      else forEachPath 1 (fun files source => one target source files) sources files

/-- Copy files, with the option `r` also directories. -/
def copy : Utility := fun directory args _ files =>
  let (options, operands) := splitOptions args
  let recursive := options.any fun option => "rRa".toList.contains option
  transfer (copyOne recursive directory) directory operands files

/-- Move files and directories. -/
def move : Utility := fun directory args _ files =>
  transfer (moveOne directory) directory (splitOptions args).2 files

/-- Print files one behind the other, or the input. -/
def concatenate : Utility := fun directory args input files =>
  let paths := (splitOptions args).2
  (if paths.isEmpty then ["-"] else paths).foldl
    (fun outcome path =>
      if path = "-" then { outcome with output := outcome.output.append input }
      else
        match files.read directory (Path.ofText path) with
        | .ok content => { outcome with output := outcome.output.append content }
        | .error _ => { outcome with status := 1 })
    { files := files }

/-- Print the names in directories, without the hidden ones. -/
def listNames : Utility := fun directory args _ files =>
  let paths := (splitOptions args).2
  (if paths.isEmpty then ["."] else paths).foldl
    (fun outcome path =>
      match files.find? directory (Path.ofText path) with
      | some (location, .directory) =>
          let shown := (files.names location).filter fun name => !name.startsWith "."
          { outcome with
            output := outcome.output.append
              (.text (String.join (shown.map fun name => name ++ "\n"))) }
      | some _ =>
          { outcome with output := outcome.output.append (.text (path ++ "\n")) }
      | none => { outcome with status := 2 })
    { files := files }

/-- Print the last name of a path. -/
def baseName : Utility := fun _ args _ files =>
  match args with
  | path :: ending =>
      let name := lastName (Path.ofText path)
      let name := match ending with
        | ending :: _ =>
            if name != ending && name.endsWith ending then
              String.ofList (name.toList.take (name.length - ending.length))
            else name
        | [] => name
      { files := files, output := .text (name ++ "\n") }
  | [] => { files := files, status := 1 }

/-- Print a path without its last name. -/
def directoryName : Utility := fun _ args _ files =>
  match args with
  | path :: _ =>
      let parent := ((Path.ofText path).parent?.map Path.text).getD path
      { files := files, output := .text ((if parent = "" then "." else parent) ++ "\n") }
  | [] => { files := files, status := 1 }

/-- Make files executable, if their new mode says so. -/
def changeMode : Utility := fun directory args _ files =>
  match args with
  | mode :: paths =>
      let executable := mode.toList.contains 'x'
        || mode.toList.any fun digit => "1357".toList.contains digit
      forEachPath 1
        (fun files path => do
          match ← files.resolve directory path with
          | .existing location (.file content _) =>
              pure (files.put location (.file content executable))
          | .existing .. => pure files
          | .absent .. => throw .notFound)
        paths files
  | [] => { files := files, status := 1 }

/-- Do nothing and end well. -/
def succeed : Utility := fun _ _ _ files => { files := files }

/-- Do nothing and fail. -/
def fail : Utility := fun _ _ _ files => { files := files, status := 1 }

/-- The utilities by name. -/
def all : List (String × Utility) :=
  [("true", succeed), ("false", fail), ("sleep", succeed), ("sync", succeed),
    ("mkdir", makeDirectories), ("rmdir", removeDirectories), ("rm", remove),
    ("touch", touch), ("cp", copy), ("mv", move), ("cat", concatenate),
    ("ls", listNames), ("basename", baseName), ("dirname", directoryName),
    ("chmod", changeMode)]

end Utility

/-! ### Conditions -/

/-- Whether a number is in a relation to another one. -/
def compareNumbers (operation : String) (left right : Int) : Option Bool :=
  match operation with
  | "-eq" => some (left = right)
  | "-ne" => some (left ≠ right)
  | "-lt" => some (left < right)
  | "-le" => some (left ≤ right)
  | "-gt" => some (right < left)
  | "-ge" => some (right ≤ left)
  | _ => none

/-- Whether something holds of a path or a text. -/
def testOne
    (files : FileSystem)
    (directory : Location)
    (operation operand : String) : Option Bool :=
  let path := Path.ofText operand
  match operation with
  | "-e" => some (files.exists? directory path)
  | "-f" => some (files.isFile directory path)
  | "-d" => some (files.isDirectory directory path)
  | "-r" | "-w" => some (files.exists? directory path)
  | "-x" => some (match files.find? directory path with
      | some (_, .file _ executable) => executable
      | some (_, .directory) => true
      | none => false)
  | "-s" => some (match files.find? directory path with
      | some (_, .file content _) => content != .text ""
      | some (_, .directory) => true
      | none => false)
  | "-L" | "-h" => some false
  | "-n" => some (operand != "")
  | "-z" => some (operand == "")
  | "!" => some (operand == "")
  | _ => none

/-- Whether something holds of two texts. -/
def testTwo (left operation right : String) : Option Bool :=
  match operation with
  | "=" | "==" => some (left = right)
  | "!=" => some (left ≠ right)
  | operation => do
      let first ← left.toInt?
      let second ← right.toInt?
      compareNumbers operation first second

/-- Whether a condition holds, if it is one. -/
def test? (files : FileSystem) (directory : Location) : List String → Option Bool
  | [] => some false
  | [text] => some (text != "")
  | [operation, operand] => testOne files directory operation operand
  | [first, operation, third] =>
      match testTwo first operation third with
      | some answer => some answer
      | none =>
          if first = "!" then (testOne files directory operation third).map not
          else none
  | ["!", first, operation, third] => (testTwo first operation third).map not
  | _ => none

end Shell

end Concordance
