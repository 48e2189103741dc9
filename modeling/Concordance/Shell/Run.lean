import Concordance.Shell.Grammar
import Concordance.Shell.Program

/-!
# Running shell scripts

A script is run on a session.  Programs are run in sessions of their own,
which share the file system with the one that launches them.

Running is bounded by a number that limits the depth of nesting and the
repetitions of a loop; a script that needs more is ended.  `launcher` is the
way to run programs that scripts give.
-/

namespace Concordance.Shell

/-- How deep commands nest and how often a loop is repeated at most. -/
def runLimit : Nat := 10000

/-- Run something on whose success a decision is made. -/
def onCondition (body : Run Unit) : Run Bool := do
  let outer := (← get).guarded
  modify fun session => { session with guarded := true }
  body
  modify fun session => { session with guarded := outer }
  pure ((← get).status == 0)

/-- End the shell if the last command failed and nobody decides on it. -/
def endIfStrict : Run Unit := do
  let session ← get
  if session.strict && !session.guarded && session.status != 0 then
    throw (.ended (.exited session.status))

/-- Run the body of a loop; the answer tells whether the loop goes on. -/
def runBody (body : Run Unit) : Run Bool :=
  ExceptT.mk do
    match ← body.run with
    | .ok () | .error (.continued 0) | .error (.continued 1) => pure (.ok true)
    | .error (.left 0) | .error (.left 1) => pure (.ok false)
    | .error (.left (loops + 1)) => pure (.error (.left loops))
    | .error (.continued (loops + 1)) => pure (.error (.continued loops))
    | .error halt => pure (.error halt)

/-- Run a body for each of several values of a variable. -/
def runEach (name : String) (body : Run Unit) : List String → Run Unit
  | [] => pure ()
  | value :: values => do
      modify fun session => session.assign name value
      if ← runBody body then runEach name body values

/-- Run a body as long as a condition holds; the status is that of the last run. -/
def runWhile (condition : Run Bool) (body : Run Unit) : Nat → Nat → Run Unit
  | 0, _ => throw (.ended (.exited 2))
  | limit + 1, last => do
      if ← condition then
        if ← runBody body then runWhile condition body limit (← get).status
      else setStatus last

/-- The first of several choices that fits. -/
def firstChoice (fits : List Word → Run Bool) :
    List (List Word × Command) → Run (Option Command)
  | [] => pure none
  | (patterns, body) :: choices => do
      if ← fits patterns then pure (some body) else firstChoice fits choices

/-- Run a function's body with its arguments. -/
def runFunction (body : Run Unit) (arguments : List String) : Run Unit := do
  let outer := (← get).arguments
  modify fun session => { session with arguments := arguments }
  ExceptT.mk do
    match ← body.run with
    | .error .returned => pure (.ok ())
    | result => pure result
  modify fun session => { session with arguments := outer }

/-- Run something with the descriptors that redirections change put back afterwards. -/
def keepDescriptors (redirections : List Redirection) (body : Run Unit) : Run Unit :=
  ExceptT.mk do
    let outer ← get
    let result ← body.run
    modify fun session =>
      { session with
        output := outer.output
        errors := outer.errors
        input :=
          if redirections.any fun redirection => redirection.descriptor == 0 then
            outer.input
          else session.input }
    pure result

/-- Where nothing is written to. -/
def nullDevice : String := "/dev/null"

/-- Lead a descriptor to a sink. -/
def Session.lead (session : Session) (descriptor : Nat) (sink : Sink) : Session :=
  match descriptor with
  | 1 => { session with output := sink }
  | 2 => { session with errors := sink }
  | _ => session

/-- Lead a descriptor to a file, which is made empty unless it is added to. -/
def Session.leadToFile
    (session : Session)
    (descriptor : Nat)
    (adding : Bool)
    (text : String) : Except OsError Session := do
  if text = nullDevice then pure (session.lead descriptor .nowhere)
  else
    let path := Path.ofText text
    let (location, _) ← session.files.writable session.directory path
    let empty : Content := .text ""
    let files ←
      if adding then session.files.appendTo session.directory path empty
      else session.files.write session.directory path empty
    pure ({ session with files := files }.lead descriptor (.file location))

/-- Carry out a redirection, given the text of its word. -/
def Session.redirect
    (session : Session)
    (redirection : Redirection)
    (text : String) : Except OsError Session :=
  match redirection.target with
  | .write _ => session.leadToFile redirection.descriptor false text
  | .append _ => session.leadToFile redirection.descriptor true text
  | .here _ => .ok { session with input := .text text }
  | .read _ =>
      if text = nullDevice then .ok { session with input := .text "" }
      else do
        let content ← session.files.read session.directory (Path.ofText text)
        pure { session with input := content }
  | .same _ =>
      match text with
      | "1" => .ok (session.lead redirection.descriptor session.output)
      | "2" => .ok (session.lead redirection.descriptor session.errors)
      | "-" => .ok (session.lead redirection.descriptor .nowhere)
      | _ => .ok session

/-- The word of a target. -/
def Target.word : Target → Word
  | .read word | .write word | .append word | .here word | .same word => word

/-- The word that stands behind the operation of a modifier. -/
def operandWord (operand : String) : Word :=
  if operand.toList.any fun char => char == '$' || char == '\x60' then
    match readQuoted none (operand.length + 1) operand.toList with
    | some (word, _) => word
    | none => [.text operand false]
  else [.text operand false]

/-- The session of a program that is launched from another one. -/
def Session.child (session : Session) (name : String) (arguments : List String) : Session :=
  { session with
    name := name
    arguments := arguments
    bindings := session.exported
    functions := []
    status := 0
    strict := false
    guarded := false }

/-- Whether a word asks for the output of a script. -/
def hasOutput (word : Word) : Bool :=
  word.any fun
    | .output .. => true
    | _ => false

/-- The arguments of the shell: its options, and whether the next argument is a script. -/
def shellOptions : List String → List Char × List String
  | [] => ([], [])
  | arg :: args =>
      match arg.toList with
      | ['-', '-'] => ([], args)
      | '-' :: letter :: letters =>
          let (others, operands) := shellOptions args
          (letter :: letters ++ others, operands)
      | _ => ([], arg :: args)

/-- The status with which a shell reports that a program could not be launched. -/
def launchStatus : OsError → Nat
  | .notFound | .notADirectory => 127
  | _ => 126

mutual

/-- What a piece of a word puts in. -/
def expandPiece : Nat → Piece → Run (List Fragment)
  | 0, _ => throw (.ended (.exited 2))
  | fuel + 1, piece => do
      match piece with
      | .text value quoted => pure (literalFragments quoted value)
      | .size name =>
          let value := ((← get).parameter? name).getD ""
          pure (literalFragments true (Nat.repr value.length))
      | .output script quoted => do
          let status := (← get).status
          let content ← collect (isolated true (runScript fuel script))
          modify fun session =>
            { session with substituted := session.status, status := status }
          let text := match content with
            | .text text => trimLineEnds text
            | .binary _ => ""
          pure (fragmentsOf quoted text)
      | .parameter name none quoted => do
          let session ← get
          if name = "@" || name = "*" && !quoted then
            pure (argumentFragments quoted session.arguments)
          else pure (fragmentsOf quoted ((session.parameter? name).getD ""))
      | .parameter name (some modifier) quoted => do
          let found := (← get).parameter? name
          let missing := match found with
            | none => true
            | some value => modifier.emptyIsMissing && value == ""
          let value := found.getD ""
          let operand ← expandWord fuel (operandWord modifier.operand)
          match modifier.operation with
          | "-" => pure (if missing then operand else fragmentsOf quoted value)
          | "+" => pure (if missing then fragmentsOf quoted "" else operand)
          | "=" =>
              if missing then
                let text := fieldText (joined operand)
                modify fun session => session.assign name text
                pure (fragmentsOf quoted text)
              else pure (fragmentsOf quoted value)
          | "#" => pure (fragmentsOf quoted (withoutStart false (patternOf operand) value))
          | "##" => pure (fragmentsOf quoted (withoutStart true (patternOf operand) value))
          | "%" => pure (fragmentsOf quoted (withoutEnd false (patternOf operand) value))
          | _ => pure (fragmentsOf quoted (withoutEnd true (patternOf operand) value))

/-- What a word contains. -/
def expandWord : Nat → Word → Run (List Fragment)
  | 0, _ => throw (.ended (.exited 2))
  | fuel + 1, word => do
      let parts ← word.mapM (expandPiece fuel)
      pure parts.flatten

/-- The text of a word that is not split. -/
def wordText : Nat → Word → Run String
  | 0, _ => throw (.ended (.exited 2))
  | fuel + 1, word => do
      let fragments ← expandWord fuel word
      pure (fieldText (joined fragments))

/-- The fields that words yield. -/
def expandWords : Nat → List Word → Run (List String)
  | 0, _ => throw (.ended (.exited 2))
  | fuel + 1, words => do
      let expanded ← words.mapM (expandWord fuel)
      let session ← get
      pure ((expanded.flatMap fun fragments => fields fragments none).flatMap
        (expandField session.files session.directory))

/-- Carry out redirections and then something else; a failing one keeps it from being run. -/
def redirecting : Nat → List Redirection → Run Unit → Run Unit
  | 0, _, _ => throw (.ended (.exited 2))
  | _ + 1, [], body => body
  | fuel + 1, redirection :: redirections, body => do
      let text ← wordText fuel redirection.target.word
      match (← get).redirect redirection text with
      | .error _ => setStatus 2
      | .ok session => do
          set session
          redirecting fuel redirections body

/-- Run a script. -/
def runScript : Nat → String → Run Unit
  | 0, _ => throw (.ended (.exited 2))
  | fuel + 1, script =>
      match Command.ofScript? script with
      | some command => run fuel command
      | none => throw (.ended (.exited 2))

/-- Turn the session into that of a program, and run the program. -/
def enter : Nat → Program → String → List String → Run Unit
  | 0, _, _, _ => throw (.ended (.exited 2))
  | fuel + 1, program, name, args => do
      match program with
      | .utility utility => do
          let session ← get
          let outcome := utility session.directory args session.input session.files
          set ({ session with files := outcome.files }.print outcome.output)
          setStatus outcome.status
      | .builtin name =>
          match builtin? name with
          | some builtin => builtin args
          | none => setStatus 127
      | .launcher => do
          let bindings := args.takeWhile fun arg => arg.toList.contains '='
          declare true bindings
          match args.drop bindings.length with
          | [] => pure ()
          | words => launch fuel words
      | .script text => do
          modify fun session => session.child name args
          runScript fuel text
      | .shell => do
          let (options, operands) := shellOptions args
          let session ← get
          let start (name : String) (arguments : List String) (script : String) : Run Unit := do
            set { session.child name arguments with strict := options.contains 'e' }
            runScript fuel script
          if options.contains 'c' then
            match operands with
            | [] => setStatus 2
            | script :: operands => start (operands.headD name) (operands.drop 1) script
          else
            match operands with
            | [] =>
                match session.input with
                | .text script => do
                    modify fun session => { session with input := .text "" }
                    start name [] script
                | .binary _ => setStatus 2
            | file :: arguments =>
                match session.files.readText session.directory (Path.ofText file) with
                | .ok script => start file arguments script
                | .error _ => setStatus 2

/-- Launch the program that words name. -/
def launch : Nat → List String → Run Unit
  | 0, _ => throw (.ended (.exited 2))
  | _ + 1, [] => pure ()
  | fuel + 1, name :: args => do
      let session ← get
      match Program.find session.files session.directory session.searchPath name with
      | .ok program => isolated false (enter fuel program name args)
      | .error error => setStatus (launchStatus error)

/-- Run what the fields of a simple command name. -/
def invoke : Nat → List String → Run Unit
  | 0, _ => throw (.ended (.exited 2))
  | _ + 1, [] => pure ()
  | fuel + 1, name :: args => do
      match (← get).functions.lookup name with
      | some body => runFunction (run fuel body) args
      | none =>
          match name with
          | "eval" => runScript fuel (" ".intercalate args)
          | "command" =>
              match args with
              | "-v" :: sought :: _ => do
                  let session ← get
                  let found := Program.find session.files session.directory
                    session.searchPath sought
                  if (builtin? sought).isSome || found.isOk then do
                    printLine sought
                    setStatus 0
                  else setStatus 127
              | words => invoke fuel words
          | "exec" => do
              launch fuel args
              throw (.ended (.exited (← get).status))
          | "." => do
              let session ← get
              match session.files.readText session.directory
                  (Path.ofText (args.headD "")) with
              | .ok script => runScript fuel script
              | .error _ => throw (.ended (.exited 2))
          | name =>
              match builtin? name with
              | some builtin => builtin args
              | none => launch fuel (name :: args)

/-- Run a simple command. -/
def runSimple : Nat → List (String × Word) → List Word → List Redirection → Run Unit
  | 0, _, _, _ => throw (.ended (.exited 2))
  | fuel + 1, assignments, words, redirections => do
      let fields ← expandWords fuel words
      if fields = ["exec"] then redirecting fuel redirections (setStatus 0)
      else keepDescriptors redirections <| redirecting fuel redirections do
        let outer := (← get).bindings
        assignments.forM fun assignment => do
          let value ← wordText fuel assignment.2
          modify fun session => session.assign assignment.1 value
        match fields with
        | [] =>
            if assignments.any fun assignment => hasOutput assignment.2 then
              setStatus (← get).substituted
            else setStatus 0
        | fields => do
            assignments.forM fun assignment =>
              modify fun session => session.exportName assignment.1
            invoke fuel fields
            if !assignments.isEmpty then
              modify fun session => { session with bindings := outer }

/-- Run a command. -/
def run : Nat → Command → Run Unit
  | 0, _ => throw (.ended (.exited 2))
  | fuel + 1, command => do
      match command with
      | .nothing => pure ()
      | .simple assignments words redirections => do
          runSimple fuel assignments words redirections
          endIfStrict
      | .sequence first second => do
          run fuel first
          run fuel second
      | .both first second => do
          if ← onCondition (run fuel first) then run fuel second
      | .either first second => do
          if !(← onCondition (run fuel first)) then run fuel second
      | .negated command => do
          let succeeded ← onCondition (run fuel command)
          setStatus (if succeeded then 1 else 0)
      | .pipe source sink => do
          let outer := (← get).input
          let content ← collect (isolated true (run fuel source))
          modify fun session => { session with input := content }
          isolated true (run fuel sink)
          modify fun session => { session with input := outer }
          endIfStrict
      | .subshell body => do
          isolated true (run fuel body)
          endIfStrict
      | .branch condition consequent alternative => do
          if ← onCondition (run fuel condition) then run fuel consequent
          else do
            setStatus 0
            run fuel alternative
      | .repeated success condition body =>
          runWhile ((· == success) <$> onCondition (run fuel condition))
            (run fuel body) fuel 0
      | .each name words body => do
          let values ← match words with
            | some words => expandWords fuel words
            | none => pure (← get).arguments
          setStatus 0
          runEach name (run fuel body) values
      | .choose word choices => do
          let subject ← wordText fuel word
          let fits (patterns : List Word) : Run Bool := do
            let expanded ← patterns.mapM (expandWord fuel)
            pure (expanded.any fun fragments => (patternOf fragments).accepts subject)
          setStatus 0
          match ← firstChoice fits choices with
          | some body => run fuel body
          | none => pure ()
      | .define name body => do
          modify fun session =>
            { session with functions := (name, body) :: session.functions }
          setStatus 0
      | .redirected body redirections =>
          keepDescriptors redirections
            (redirecting fuel redirections (run fuel body))

end

/-- The session in which a program is launched from outside. -/
def Session.start
    (environment : Environment)
    (directory : Location)
    (files : FileSystem)
    (name : String) : Session :=
  let bindings := environment.bindings.map fun (name, value) =>
    (name, (⟨value, true⟩ : Variable))
  let session : Session :=
    { files := files, directory := directory, name := name, bindings := bindings }
  (session.assign "PWD" session.directoryPath.text).exportName "PWD"

/-- Run a program in a session: how it ended, and the files that it left. -/
def runProgram
    (program : Program)
    (name : String)
    (args : List String)
    (session : Session) : ExitStatus × FileSystem :=
  let (result, after) := Id.run ((enter runLimit program name args).run session)
  let status := match result with
    | .error (.ended status) => status
    | _ => .exited after.status
  (status, after.files)

open FileSystem (Step)

/-- The directory in which an invocation runs. -/
def workingDirectory
    (files : FileSystem)
    (current : Location)
    (invocation : Invocation) : Except OsError Location := do
  match invocation.directory with
  | none => pure current
  | some path =>
      match ← files.resolve current path with
      | .existing location .directory => pure location
      | .existing .. => throw .notADirectory
      | .absent .. => throw .notFound

/-- Whether a text contains the character zero. -/
def hasZero (text : String) : Bool :=
  text.toList.contains '\x00'

/-- The way to run programs that scripts and utilities give. -/
def launcher (environment : Environment) (current : Location) : Launcher :=
  fun invocation => do
    let files ← get
    let texts := invocation.program :: invocation.args
      ++ (invocation.directory.map Path.text).toList
    if texts.any hasZero then throw .zeroInCommand
    let directory ← ExceptT.mk (pure (workingDirectory files current invocation))
    let session := Session.start environment directory files invocation.program
    let program ← ExceptT.mk (pure
      (Program.find files directory session.searchPath invocation.program))
    let (status, changed) :=
      runProgram program invocation.program invocation.args session
    set changed
    pure status

end Concordance.Shell
