import Concordance.Shell.Utility

/-!
# Commands of the shell itself

These commands work on the session: they print, change variables, arguments
or the directory, or end what runs.
-/

namespace Concordance.Shell

/-- Print a line. -/
def printLine (text : String) : Run Unit :=
  printText (text ++ "\n")

/-- The value of an octal digit. -/
def octalDigit? (char : Char) : Option Nat :=
  if '0' ≤ char && char ≤ '7' then some (char.toNat - '0'.toNat) else none

/-- The value of up to some number of octal digits, and what follows them. -/
def readOctal : Nat → Nat → List Char → Nat × List Char
  | 0, value, rest => (value, rest)
  | count + 1, value, char :: rest =>
      match octalDigit? char with
      | some digit => readOctal count (8 * value + digit) rest
      | none => (value, char :: rest)
  | _ + 1, value, [] => (value, [])

/-- The character that a letter behind a backslash stands for. -/
def escapedChar? (char : Char) : Option Char :=
  match char with
  | 'a' => some '\x07'
  | 'b' => some '\x08'
  | 'f' => some '\x0c'
  | 'n' => some '\n'
  | 'r' => some '\r'
  | 't' => some '\t'
  | 'v' => some '\x0b'
  | '\\' => some '\\'
  | _ => none

/-- A text with its backslashes followed, and whether it is to be broken off. -/
def unescape : Nat → List Char → List Char × Bool
  | 0, chars => (chars, false)
  | fuel + 1, '\\' :: 'c' :: _ => if fuel = 0 then ([], true) else ([], true)
  | fuel + 1, '\\' :: '0' :: rest =>
      let (value, after) := readOctal 3 0 rest
      let (others, stops) := unescape fuel after
      (Char.ofNat value :: others, stops)
  | fuel + 1, '\\' :: char :: rest =>
      let (others, stops) := unescape fuel rest
      match escapedChar? char with
      | some escaped => (escaped :: others, stops)
      | none => ('\\' :: char :: others, stops)
  | fuel + 1, char :: rest =>
      let (others, stops) := unescape fuel rest
      (char :: others, stops)
  | _ + 1, [] => ([], false)

/-- Print arguments with blanks between them. -/
def echo (args : List String) : Run Unit := do
  let (newline, args) := match args with
    | "-n" :: args => (false, args)
    | args => (true, args)
  let text := (" ".intercalate args).toList
  let (chars, stops) := unescape (text.length + 1) text
  printText (String.ofList chars ++ if newline && !stops then "\n" else "")
  setStatus 0

/-- Print a format with arguments put in; what is left of the arguments comes with it. -/
def formatOnce : Nat → List Char → List String → List Char × List String
  | 0, _, args => ([], args)
  | _ + 1, [], args => ([], args)
  | fuel + 1, '%' :: '%' :: rest, args =>
      let (text, args) := formatOnce fuel rest args
      ('%' :: text, args)
  | fuel + 1, '%' :: kind :: rest, args =>
      let first := args.headD (if kind == 'd' || kind == 'i' then "0" else "")
      let shown :=
        if kind == 'b' then (unescape (first.length + 1) first.toList).1
        else if kind == 'c' then first.toList.take 1
        else first.toList
      let (text, args) := formatOnce fuel rest (args.drop 1)
      (shown ++ text, args)
  | fuel + 1, '\\' :: char :: rest, args =>
      match octalDigit? char with
      | some _ =>
          let (value, after) := readOctal 3 0 (char :: rest)
          let (text, args) := formatOnce fuel after args
          (Char.ofNat value :: text, args)
      | none =>
          let (text, args) := formatOnce fuel rest args
          match escapedChar? char with
          | some escaped => (escaped :: text, args)
          | none => ('\\' :: char :: text, args)
  | fuel + 1, char :: rest, args =>
      let (text, args) := formatOnce fuel rest args
      (char :: text, args)

/-- Print a format as often as there are arguments for it. -/
def formatAll (format : List Char) : Nat → List String → List Char
  | 0, _ => []
  | fuel + 1, args =>
      let (text, rest) := formatOnce (format.length + 1) format args
      if rest.isEmpty || rest.length = args.length then text
      else text ++ formatAll format fuel rest

/-- Print arguments in a format. -/
def printFormat : List String → Run Unit
  | [] => setStatus 2
  | format :: args => do
      printText (String.ofList (formatAll format.toList (args.length + 1) args))
      setStatus 0

/-- End the shell. -/
def exit (args : List String) : Run Unit := do
  match args with
  | [] => throw (.ended (.exited (← get).status))
  | code :: _ =>
      match code.toNat? with
      | some code => throw (.ended (.exited (code % 256)))
      | none => throw (.ended (.exited 2))

/-- Leave a function. -/
def returnFrom (args : List String) : Run Unit := do
  match args.head?.bind String.toNat? with
  | some code => setStatus (code % 256)
  | none => pure ()
  throw .returned

/-- The number of loops that an argument tells. -/
def loopCount (args : List String) : Nat :=
  ((args.head?.bind String.toNat?).getD 1).max 1

/-- The number of a signal that a name or a number tells. -/
def signalNumber? (text : String) : Option Nat :=
  match text.toNat? with
  | some number => some number
  | none =>
      let name := text.toUpper
      let name :=
        if name.startsWith "SIG" then String.ofList (name.toList.drop 3) else name
      (ExitStatus.signalNames.find? fun signal => signal.2 == name).map Prod.fst

/-- The signal that arguments ask for, and the processes that it is for. -/
def killArguments : List String → Option Nat × List String
  | "-s" :: name :: processes => (signalNumber? name, processes)
  | option :: processes =>
      match option.toList with
      | '-' :: name => (signalNumber? (String.ofList name), processes)
      | _ => (some 15, option :: processes)
  | [] => (none, [])

/-- Signals that do not end a process. -/
def harmlessSignals : List Nat := [0, 17, 18, 23, 28]

/-- Send a signal; the shell knows no process but itself. -/
def kill (args : List String) : Run Unit := do
  match killArguments args with
  | (none, _) => setStatus 2
  | (some number, processes) =>
      if processes.contains processNumber then
        if harmlessSignals.contains number then setStatus 0
        else throw (.ended (.signalled number))
      else setStatus 1

/-- Go to another directory. -/
def changeDirectory (args : List String) : Run Unit := do
  let session ← get
  let path := match args.filter fun arg => arg != "-P" && arg != "-L" && arg != "--" with
    | path :: _ => path
    | [] => (session.value? "HOME").getD ""
  match session.files.find? session.directory (Path.ofText path) with
  | some (location, .directory) =>
      let moved := { session with directory := location, status := 0 }
      set (moved.assign "PWD" moved.directoryPath.text)
  | _ => setStatus 2

/-- The name and the value on the two sides of an equals sign. -/
def splitAssignment (text : String) : String × Option String :=
  let chars := text.toList
  let name := chars.takeWhile (· != '=')
  match chars.drop name.length with
  | [] => (text, none)
  | _ :: value => (String.ofList name, some (String.ofList value))

/-- Give variables values, and let programs see them if that is wanted. -/
def declare (exporting : Bool) (args : List String) : Run Unit := do
  args.forM fun arg => do
    let (name, value) := splitAssignment arg
    modify fun session =>
      let session := match value with
        | some value => session.assign name value
        | none => session
      if exporting then session.exportName name else session
  setStatus 0

/-- Change arguments and options. -/
def setOptions (args : List String) : Run Unit := do
  match args with
  | "--" :: arguments => modify fun session => { session with arguments := arguments }
  | option :: _ =>
      match option.toList with
      | '-' :: letters =>
          if letters.contains 'e' then
            modify fun session => { session with strict := true }
      | '+' :: letters =>
          if letters.contains 'e' then
            modify fun session => { session with strict := false }
      | _ => modify fun session => { session with arguments := args }
  | [] => pure ()
  setStatus 0

/-- Drop arguments. -/
def shift (args : List String) : Run Unit := do
  let count := (args.head?.bind String.toNat?).getD 1
  let session ← get
  if session.arguments.length < count then throw (.ended (.exited 2))
  set { session with arguments := session.arguments.drop count, status := 0 }

/-- Give variables the words of a line; the last one takes the rest. -/
def assignWords : List String → List Char → Run Unit
  | [], _ => pure ()
  | [name], line =>
      modify fun session =>
        session.assign name (String.ofList (line.reverse.dropWhile (· == ' ')).reverse)
  | name :: names, line => do
      let word := line.takeWhile (· != ' ')
      modify fun session => session.assign name (String.ofList word)
      assignWords names ((line.drop word.length).dropWhile (· == ' '))

/-- Read a line of the input. -/
def readLine (args : List String) : Run Unit := do
  let names := args.filter (· != "-r")
  let session ← get
  match session.input with
  | .binary _ => setStatus 1
  | .text input => do
      let chars := input.toList
      let line := chars.takeWhile (· != '\n')
      let behind := chars.drop line.length
      set { session with input := .text (String.ofList (behind.drop 1)) }
      assignWords names (line.dropWhile (· == ' '))
      setStatus (if behind.isEmpty then 1 else 0)

/-- Test a condition. -/
def test (args : List String) : Run Unit := do
  let session ← get
  match test? session.files session.directory args with
  | some true => setStatus 0
  | some false => setStatus 1
  | none => setStatus 2

/-- Test a condition in brackets. -/
def testInBrackets (args : List String) : Run Unit :=
  if args.getLast? = some "]" then test args.dropLast else setStatus 2

/-- The commands that work on the session. -/
def builtin? (name : String) : Option (List String → Run Unit) :=
  match name with
  | ":" | "true" | "trap" | "wait" | "umask" | "readonly" => some fun _ => setStatus 0
  | "false" => some fun _ => setStatus 1
  | "echo" => some echo
  | "printf" => some printFormat
  | "exit" => some exit
  | "return" => some returnFrom
  | "break" => some fun args => throw (.left (loopCount args))
  | "continue" => some fun args => throw (.continued (loopCount args))
  | "kill" => some kill
  | "cd" => some changeDirectory
  | "pwd" => some fun _ => do
      printLine (← get).directoryPath.text
      setStatus 0
  | "export" => some (declare true)
  | "local" => some (declare false)
  | "unset" => some fun names => do
      names.forM fun name => modify fun session => session.unassign name
      setStatus 0
  | "set" => some setOptions
  | "shift" => some shift
  | "read" => some readLine
  | "test" => some test
  | "[" => some testInBrackets
  | _ => none

/-- The commands that there are as programs, too. -/
def builtinPrograms : List String :=
  ["echo", "printf", "kill", "pwd", "test", "["]

end Concordance.Shell
