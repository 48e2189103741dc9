import Concordance.Config.Decode

/-!
# Arguments

The first argument chooses a command, and the ones behind it are options with
a value, which stands in the next argument or behind an equals sign.  A value
that stands in the next argument is looked at when the next option begins or
the arguments end.  Behind two lone hyphens there are no options.

Each option may be given once.  Arguments are read from left to right, and
the first thing that is wrong ends the reading; a missing option is noticed
at the end.
-/

namespace Concordance.CommandLine

/-- Why arguments are not carried out. -/
inductive UsageError where
  /-- The help was asked for. -/
  | help
  /-- The version was asked for. -/
  | version
  /-- There is no command. -/
  | missingCommand
  | unknownCommand
  | missingArgument
  | unknownArgument
  | invalidValue
  /-- A value for something that takes none. -/
  | unwantedValue
  /-- An option was given twice. -/
  | repeated
  deriving DecidableEq, Repr

/-- The forms of an argument. -/
inductive Argument where
  /-- Two lone hyphens. -/
  | escape
  | long (name : String) (value : Option String)
  | short (first : Char)
  | plain (text : String)
  deriving DecidableEq, Repr

/-- The name and the value on the two sides of the first equals sign. -/
def splitValue (chars : List Char) : String × Option String :=
  let name := String.ofList (chars.takeWhile (· != '='))
  match chars.dropWhile (· != '=') with
  | [] => (name, none)
  | _ :: value => (name, some (String.ofList value))

/-- The form of an argument. -/
def Argument.ofText (text : String) : Argument :=
  match text.toList with
  | ['-', '-'] => .escape
  | '-' :: '-' :: rest =>
      let (name, value) := splitValue rest
      .long name value
  | '-' :: first :: _ => .short first
  | _ => .plain text

/-- An option of a command, and the values that it takes. -/
structure OptionSpec where
  name : String
  accepts : String → Bool

/-- The reading of a command's options so far. -/
structure Reading where
  values : List (String × String) := []
  /-- The last option, whose value is still to be looked at, and the value if it was there. -/
  pending : Option (OptionSpec × Option String) := none
  /-- Two lone hyphens have been read. -/
  escaped : Bool := false

namespace Reading

/-- Give an option its value. -/
def assign
    (reading : Reading)
    (option : OptionSpec)
    (value : String) : Except UsageError Reading :=
  if (reading.values.lookup option.name).isSome then .error .repeated
  else if !option.accepts value then .error .invalidValue
  else
    .ok { reading with
      values := reading.values ++ [(option.name, value)]
      pending := none }

/-- Look at the value of the last option. -/
def settle (reading : Reading) : Except UsageError Reading :=
  match reading.pending with
  | none => .ok reading
  | some (_, none) => .error .invalidValue
  | some (option, some value) => reading.assign option value

/-- Read an argument that is no option. -/
def readPlain (reading : Reading) (text : String) : Except UsageError Reading :=
  match reading.pending with
  | some (option, none) => .ok { reading with pending := some (option, some text) }
  | _ => .error .unknownArgument

/-- Read the beginning of an option. -/
def readOption
    (options : List OptionSpec)
    (reading : Reading)
    (name : String)
    (value : Option String) : Except UsageError Reading :=
  match options.find? fun option => option.name == name with
  | some option => do
      let settled ← reading.settle
      match value with
      | some value => settled.assign option value
      | none => pure { settled with pending := some (option, none) }
  | none =>
      if name = "help" then
        match value with
        | some _ => .error .unwantedValue
        | none => do
            let _ ← reading.settle
            throw .help
      else .error .unknownArgument

/-- Read an argument. -/
def read
    (options : List OptionSpec)
    (reading : Reading)
    (text : String) : Except UsageError Reading :=
  if reading.escaped then .error .unknownArgument
  else
    match Argument.ofText text with
    | .escape => .ok { reading with escaped := true }
    | .long name value => reading.readOption options name value
    | .short first =>
        if first = 'h' then reading.readOption options "help" none
        else .error .unknownArgument
    | .plain text => reading.readPlain text

end Reading

/-- The values of a command's options. -/
def readOptions
    (options : List OptionSpec)
    (args : List String) : Except UsageError (List (String × String)) := do
  let reading ← args.foldlM (Reading.read options) {}
  let settled ← reading.settle
  pure settled.values

/-! ### Commands -/

/-- What the program is asked to do. -/
inductive Command where
  /-- Build the documentation for a directory. -/
  | build (directory : Option Path)
  /-- Put the index into a dump. -/
  | index (input output : Path) (injector : Index.Injector)
  /-- Show the configuration of a directory. -/
  | config (directory : Option Path)
  deriving DecidableEq, Repr

/-- An option that takes a path. -/
def pathOption (name : String) : OptionSpec :=
  ⟨name, fun value => value != ""⟩

/-- An option that takes any text. -/
def textOption (name : String) : OptionSpec :=
  ⟨name, fun _ => true⟩

/-- An option that takes one of several words. -/
def wordOption {α : Type} (name : String) (words : List (String × α)) : OptionSpec :=
  ⟨name, fun value => (words.lookup value).isSome⟩

/-- The directory that a command is given. -/
def readDirectory (args : List String) : Except UsageError (Option Path) := do
  let values ← readOptions [pathOption "dir"] args
  pure ((values.lookup "dir").map Path.ofText)

/-- The command that puts an index into a dump; without an output the input itself is changed. -/
def readIndex (args : List String) : Except UsageError Command := do
  let values ← readOptions
    [pathOption "input", pathOption "output", textOption "marker",
      wordOption "policy" Config.policyWords,
      wordOption "layout" Config.layoutWords] args
  match values.lookup "input" with
  | none => throw .missingArgument
  | some input =>
      let marker := (values.lookup "marker").getD Index.defaultMarker
      let policy := (values.lookup "policy").bind fun word =>
        Config.policyWords.lookup word
      let layout := (values.lookup "layout").bind fun word =>
        Config.layoutWords.lookup word
      pure (.index (Path.ofText input)
        (Path.ofText ((values.lookup "output").getD input))
        { Index.Injector.ofMarker marker with
          policy := policy.getD .firstOnly
          renderer := ⟨layout.getD .flat, Index.defaultTitle⟩ })

/-- The names of the commands. -/
def commandNames : List String := ["build", "index", "config", "help"]

/-- The answer to a question for help on a command. -/
def readHelp : List String → UsageError
  | [] => .help
  | [command] => if command ∈ commandNames then .help else .unknownCommand
  | _ => .unknownCommand

/-- Read the arguments of a command. -/
def readCommand (command : String) (args : List String) : Except UsageError Command :=
  match command with
  | "build" => .build <$> readDirectory args
  | "index" => readIndex args
  | "config" => .config <$> readDirectory args
  | "help" => .error (readHelp args)
  | _ => .error .unknownCommand

/-- What the flags of the program itself ask for. -/
def readFlag : Argument → UsageError
  | .long "help" none | .short 'h' => .help
  | .long "version" none | .short 'V' => .version
  | .long "help" (some _) | .long "version" (some _) => .unwantedValue
  | .long .. | .short _ => .unknownArgument
  | .escape => .missingCommand
  | .plain _ => .unknownCommand

/-- Read the arguments behind two lone hyphens, where no command can stand. -/
def readEscaped : List String → UsageError
  | [] => .missingCommand
  | text :: _ => if text ∈ commandNames then .unknownArgument else .unknownCommand

/-- The command that arguments ask for. -/
def Command.ofArgs : List String → Except UsageError Command
  | [] => .error .missingCommand
  | text :: args =>
      if text ∈ commandNames then readCommand text args
      else
        match Argument.ofText text with
        | .escape => .error (readEscaped args)
        | argument => .error (readFlag argument)

end Concordance.CommandLine
