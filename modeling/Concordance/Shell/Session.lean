import Concordance.Config.Overrides
import Concordance.Process
import Concordance.Shell.Script

/-!
# Shell sessions

A session is the state of a shell that runs a script: the file system, the
current directory, the arguments and variables, the status of the last
command, and where its descriptors lead.  Output that nobody reads is
dropped.
-/

namespace Concordance.Shell

/-- A variable. -/
structure Variable where
  value : String
  /-- Programs see it in their environment. -/
  exported : Bool := false
  deriving DecidableEq, Repr

/-- Where output goes. -/
inductive Sink where
  | nowhere
  | file (location : Location)
  /-- Into the text that the session collects. -/
  | collected
  deriving DecidableEq, Repr

/-- The state of a shell. -/
structure Session where
  files : FileSystem
  directory : Location
  name : String
  arguments : List String := []
  bindings : List (String × Variable) := []
  functions : List (String × Command) := []
  status : Nat := 0
  /-- The status of the last script whose output was put into a word. -/
  substituted : Nat := 0
  input : Content := .text ""
  output : Sink := .nowhere
  errors : Sink := .nowhere
  collection : Content := .text ""
  /-- A failing command ends the shell. -/
  strict : Bool := false
  /-- The command that runs decides on a condition. -/
  guarded : Bool := false

/-- Why the commands that follow are not run. -/
inductive Halt where
  | ended (status : ExitStatus)
  /-- Leave the function that runs. -/
  | returned
  /-- Leave some number of loops. -/
  | left (loops : Nat)
  /-- Leave some number of loops, and go on with the next one. -/
  | continued (loops : Nat)
  deriving DecidableEq, Repr

/-- A piece of work in a session. -/
abbrev Run := ExceptT Halt (StateM Session)

/-- The number by which a shell knows itself. -/
def processNumber : String := "1000"

namespace Session

/-- The value of a variable. -/
def value? (session : Session) (name : String) : Option String :=
  (session.bindings.lookup name).map Variable.value

/-- Give a variable a value. -/
def assign (session : Session) (name value : String) : Session :=
  let exported := ((session.bindings.lookup name).map Variable.exported).getD false
  { session with
    bindings := (name, ⟨value, exported⟩) ::
      session.bindings.filter fun old => old.1 != name }

/-- Remove a variable. -/
def unassign (session : Session) (name : String) : Session :=
  { session with
    bindings := session.bindings.filter fun old => old.1 != name }

/-- Let programs see a variable. -/
def exportName (session : Session) (name : String) : Session :=
  let value := (session.value? name).getD ""
  { session with
    bindings := (name, ⟨value, true⟩) ::
      session.bindings.filter fun old => old.1 != name }

/-- The variables that programs see. -/
def exported (session : Session) : List (String × Variable) :=
  session.bindings.filter fun old => old.2.exported

/-- The path of the current directory. -/
def directoryPath (session : Session) : Path :=
  ⟨true, session.directory⟩

/-- Put content into a sink. -/
def put (session : Session) (sink : Sink) (content : Content) : Session :=
  match sink with
  | .nowhere => session
  | .collected => { session with collection := session.collection.append content }
  | .file location =>
      match session.files.entry? location with
      | some (.file old executable) =>
          { session with
            files := session.files.put location
              (.file (old.append content) executable) }
      | _ => session

/-- Print a content. -/
def print (session : Session) (content : Content) : Session :=
  session.put session.output content

/-- The value of a parameter that has a character or a number for a name. -/
def special? (session : Session) (name : String) : Option String :=
  match name with
  | "#" => some (Nat.repr session.arguments.length)
  | "?" => some (Nat.repr session.status)
  | "$" => some processNumber
  | "!" | "-" => some ""
  | "0" => some session.name
  | "@" | "*" => some (" ".intercalate session.arguments)
  | name =>
      match name.toNat? with
      | some (index + 1) => session.arguments[index]?
      | _ => none

/-- The value of a parameter. -/
def parameter? (session : Session) (name : String) : Option String :=
  match name.toList with
  | first :: _ =>
      if first.isAlpha || first == '_' then session.value? name
      else session.special? name
  | [] => none

end Session

/-- End the command that runs with a status. -/
def setStatus (status : Nat) : Run Unit :=
  modify fun session => { session with status := status }

/-- Print a text. -/
def printText (text : String) : Run Unit :=
  modify fun session => session.print (.text text)

/--
Run something in a shell of its own: its variables, its directory and its
end concern nobody else, only files, input and collected output do.  A
signal ends the outer shell too if both have the same number.
-/
def isolated (sameNumber : Bool) (body : Run Unit) : Run Unit :=
  ExceptT.mk do
    let outer ← get
    let result ← body.run
    let inner ← get
    let status := match result with
      | .error (.ended (.exited code)) => code
      | .error (.ended (.signalled number)) => 128 + number
      | _ => inner.status
    set { outer with
      files := inner.files
      input := inner.input
      collection := inner.collection
      status := status }
    match result with
    | .error (.ended (.signalled number)) =>
        if sameNumber then pure (.error (.ended (.signalled number)))
        else pure (.ok ())
    | _ => pure (.ok ())

/-- Run something and collect its output instead of printing it. -/
def collect (body : Run Unit) : Run Content := do
  let outer ← get
  set { outer with output := .collected, collection := .text "" }
  body
  let inner ← get
  set { inner with output := outer.output, collection := outer.collection }
  pure inner.collection

end Concordance.Shell
