import Concordance.CommandLine.Run
import Concordance.FileSystem.Difference
import Concordance.Shell.Run

/-!
# The program

The program reads the directories that a command is about, carries the
command out on them as values, and writes back what has changed.  Programs
that a build launches are scripts found in those directories.
-/

open Concordance
open Concordance.CommandLine (Command UsageError)

namespace Concordance.System

/-- How deep directories are read. -/
def depthLimit : Nat := 40

/-- The location to which a path leads from a directory. -/
def locationOf (current : Location) (path : Path) : Location :=
  ((Path.absolute? ⟨true, current⟩ path).getD ⟨true, current⟩).pieces.filter (· != "")

/-- The text of a location. -/
def locationText (location : Location) : String :=
  (Path.mk true location).text

/-- Add a file of the system. -/
def readFile (files : FileSystem) (location : Location) : IO FileSystem := do
  let bytes ← IO.FS.readBinFile (locationText location)
  let content := Content.ofBytes bytes.toList
  let executable := match content with
    | .text text => text.startsWith "#!"
    | .binary _ => false
  pure (files.put location (.file content executable))

/-- Add a file of the system, unless it cannot be read. -/
def readFileIfAny (files : FileSystem) (location : Location) : IO FileSystem := do
  try readFile files location
  catch _ => pure files

/-- Add the directories above a location. -/
def readParents (files : FileSystem) (location : Location) : FileSystem :=
  (List.range location.length).foldl
    (fun files count =>
      match files.entry? (location.take count) with
      | some _ => files
      | none => files.put (location.take count) .directory)
    files

/-- Add a directory of the system with everything in it. -/
def readTree : Nat → FileSystem → Location → IO FileSystem
  | 0, files, _ => pure files
  | depth + 1, files, location => do
      let directory := (← IO.currentDir) / locationText location
      if ← directory.isDir then
        let files := (readParents files location).put location .directory
        let entries ← directory.readDir
        entries.toList.foldlM
          (fun files entry => do
            let below := location ++ [entry.fileName]
            if ← entry.path.isDir then readTree depth files below
            else readFileIfAny files below)
          files
      else pure files

/-- Add the configuration files of a directory and of those above it. -/
def readLayers (files : FileSystem) (location : Location) : IO FileSystem :=
  (List.range (location.length + 1)).foldlM
    (fun files count =>
      let directory := location.take count
      layerNames.foldlM
        (fun files (name, _) => do
          let read ← readFileIfAny files (directory ++ [name])
          pure (readParents read (directory ++ [name])))
        files)
    files

/-- The directories that a command is about. -/
def directoriesOf (current : Location) : Command → List Location
  | .build directory | .config directory =>
      [current, locationOf current (directory.getD ⟨true, current⟩)]
  | .index input output _ =>
      [(locationOf current input).dropLast, (locationOf current output).dropLast]

/-- Carry out a change on the system. -/
def writeChange : FileSystem.Change → IO Unit
  | .remove location => do
      let path := (← IO.currentDir) / locationText location
      if ← path.isDir then IO.FS.removeDirAll path else IO.FS.removeFile path
  | .makeDirectory location => IO.FS.createDirAll (locationText location)
  | .writeFile location content _ =>
      IO.FS.writeBinFile (locationText location) ⟨content.bytes.toArray⟩

/-- The variables of the environment that matter. -/
def environment : IO Environment := do
  let names := [outDirVariable, workDirVariable, "HOME", "PATH"]
  let found ← names.filterMapM fun name => do
    pure ((← IO.getEnv name).map fun value => (name, value))
  pure ⟨found⟩

/-- What is printed for a failing command. -/
def failureText : List String → String
  | [] => ""
  | [message] => "Error: " ++ message ++ "\n"
  | message :: causes =>
      "Error: " ++ message ++ "\n\nCaused by:\n"
        ++ String.join (causes.map fun cause => "    " ++ cause ++ "\n")

/-- How the program is used. -/
def usageText : String :=
  "Usage: concordance <COMMAND>\n\nCommands:\n"
    ++ "  build   [--dir <DIR>]\n"
    ++ "  index   --input <FILE> [--output <FILE>] [--marker <TAG>]"
    ++ " [--policy <POLICY>] [--layout <LAYOUT>]\n"
    ++ "  config  [--dir <DIR>]\n"

/-- Answer arguments that ask for no command. -/
def reject : UsageError → IO UInt32
  | .help => do
      IO.print usageText
      pure 0
  | .version => do
      IO.print "concordance 0.1.0\n"
      pure 0
  | _ => do
      IO.eprint usageText
      pure 2

/-- Carry out a command on the system. -/
def carryOut (command : Command) : IO UInt32 := do
  let current := (Path.ofText (← IO.currentDir).toString).pieces
  let environment ← environment
  let directories := directoriesOf current command
  let read ← directories.foldlM (readTree depthLimit) FileSystem.empty
  let before ← directories.foldlM readLayers read
  let setting : CommandLine.Setting :=
    ⟨current, environment, Shell.launcher environment current⟩
  let (result, after) := Id.run ((command.run setting).run before)
  (FileSystem.changes before after).forM writeChange
  match result with
  | .ok printed => do
      IO.print printed
      pure 0
  | .error error => do
      IO.eprint (failureText error.chain)
      pure 1

end Concordance.System

/-- Carry out the command that the arguments ask for. -/
def main (args : List String) : IO UInt32 :=
  match Command.ofArgs args with
  | .ok command => Concordance.System.carryOut command
  | .error error => Concordance.System.reject error
