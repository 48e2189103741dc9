import Concordance.Shell.Builtin

/-!
# Finding programs

A program is named by a path, or by a name that is looked for in the
directories of the variable `PATH`.  The file system holds scripts, which
name the shell in their first line; the utilities of the system lie in its
own directories without being part of the file system.
-/

namespace Concordance.Shell

/-- A program that can be launched. -/
inductive Program where
  | script (text : String)
  | shell
  /-- A program that runs another one. -/
  | launcher
  | builtin (name : String)
  | utility (utility : Utility)

/-- The names of the shell. -/
def shellNames : List String := ["sh", "dash", "bash"]

/-- The directories in which the programs of the system lie. -/
def systemDirectories : List String :=
  ["/usr/local/sbin", "/usr/local/bin", "/usr/sbin", "/usr/bin", "/sbin", "/bin"]

namespace Program

/-- The program of the system with a name. -/
def system? (name : String) : Option Program :=
  if shellNames.contains name then some .shell
  else if name = "env" then some .launcher
  else if builtinPrograms.contains name then some (.builtin name)
  else (Utility.all.lookup name).map .utility

/-- The words of the first line of a script that names its interpreter. -/
def interpreter? (text : String) : Option (List String) :=
  match text.toList with
  | '#' :: '!' :: rest =>
      some ((Text.splitChars ' ' (rest.takeWhile (· != '\n'))).map String.ofList
        |>.filter (· != ""))
  | _ => none

/-- The program in an executable file. -/
def ofContent (content : Content) : Except OsError Program :=
  match content with
  | .binary _ => .error .badExecutable
  | .text text =>
      match interpreter? text with
      | none | some [] => .error .badExecutable
      | some (path :: args) =>
          let name := Utility.lastName (Path.ofText path)
          let name := if name = "env" then args.headD "" else name
          if shellNames.contains name then .ok (.script text) else .error .notFound

/-- The program at a path. -/
def atPath (files : FileSystem) (current : Location) (path : Path) :
    Except OsError Program :=
  match files.resolve current path with
  | .ok (.existing _ (.file content true)) => ofContent content
  | .ok (.existing ..) => .error .permissionDenied
  | .ok (.absent ..) => .error .notFound
  | .error error => .error error

/-- The program of the system at a path. -/
def systemAt? (path : Path) : Option Program :=
  match path.parent? with
  | some parent =>
      if systemDirectories.contains parent.text then system? (Utility.lastName path)
      else none
  | none => none

/-- The program at a path, which may be one of the system. -/
def locate (files : FileSystem) (current : Location) (path : Path) :
    Except OsError Program :=
  match systemAt? path with
  | some program => .ok program
  | none => atPath files current path

/-- The first program of a name in directories; one that must not be run is passed over. -/
def search
    (files : FileSystem)
    (current : Location)
    (name : String) : List String → Except OsError Program
  | [] => .error .notFound
  | directory :: directories =>
      match locate files current ((Path.ofText directory).joinText name) with
      | .error .notFound | .error .notADirectory => search files current name directories
      | .error .permissionDenied =>
          match search files current name directories with
          | .ok program => .ok program
          | .error _ => .error .permissionDenied
      | found => found

/-- The program that a name or a path tells. -/
def find
    (files : FileSystem)
    (current : Location)
    (directories : List String)
    (name : String) : Except OsError Program :=
  if name = "" then .error .notFound
  else if name.toList.contains '/' then locate files current (Path.ofText name)
  else search files current name directories

end Program

/-- The directories in which a session looks for programs. -/
def Session.searchPath (session : Session) : List String :=
  match session.value? "PATH" with
  | some path => Text.split ':' path
  | none => systemDirectories

end Concordance.Shell
