import Concordance.Shell.Token

/-!
# Reading a shell script

Tokens are put together to commands.  Words such as `if` count only where a
command may begin.  Lists are ended by semicolons and line breaks; a command
that is sent to the background is read like one that is not.
-/

namespace Concordance.Shell

/-- A reading of tokens, which may fail. -/
abbrev Reading := StateT (List Token) Option

namespace Reading

/-- The word that a token is, if it is a plain one. -/
def plainWord? : Option Token → Option String
  | some (.word [.text value false]) => some value
  | _ => none

/-- The next token is an operator. -/
def atOperator (text : String) : Reading Bool := do
  pure ((← get).head? == some (.operator text))

/-- The next token is a plain word. -/
def atWord (text : String) : Reading Bool := do
  pure (plainWord? (← get).head? == some text)

/-- Go on by one token. -/
def advance : Reading Unit :=
  modify (·.drop 1)

/-- Read an operator. -/
def operator (text : String) : Reading Unit := do
  if ← atOperator text then advance else failure

/-- Read a plain word. -/
def keyword (text : String) : Reading Unit := do
  if ← atWord text then advance else failure

/-- Go on over line breaks. -/
def skipLines : Reading Unit :=
  modify fun tokens => tokens.dropWhile (· == .operator "\n")

/-- Go on over line breaks and semicolons. -/
def skipSeparators : Reading Unit :=
  modify fun tokens => tokens.dropWhile fun token =>
    token == .operator "\n" || token == .operator ";"

/-- Read any word. -/
def word : Reading Word := do
  match (← get) with
  | .word word :: rest => do
      set rest
      pure word
  | _ => failure

/-- The words that end a list of commands. -/
def closingWords : List String :=
  ["then", "else", "elif", "fi", "do", "done", "esac", "\x7d"]

/-- A list of commands ends here. -/
def atEnd : Reading Bool := do
  match (← get).head? with
  | none => pure true
  | some (.operator text) => pure (text == ")" || text == ";;")
  | some token =>
      match plainWord? (some token) with
      | some word => pure (closingWords.contains word)
      | none => pure false

/-- The target that an operator of redirection leads to. -/
def target? (text : String) (descriptor : Option Nat) (path : Word) : Option Redirection :=
  match text with
  | "<" => some ⟨descriptor.getD 0, .read path⟩
  | ">" => some ⟨descriptor.getD 1, .write path⟩
  | ">>" => some ⟨descriptor.getD 1, .append path⟩
  | ">&" => some ⟨descriptor.getD 1, .same path⟩
  | "<&" => some ⟨descriptor.getD 0, .same path⟩
  | _ => none

/-- Read a redirection, if one stands here. -/
def redirection? : Reading (Option Redirection) := do
  let (descriptor, rest) := match (← get) with
    | .descriptor number :: rest => (some number, rest)
    | rest => (none, rest)
  match rest with
  | .operator "<<" :: .here text :: rest => do
      set rest
      pure (some ⟨descriptor.getD 0, .here text⟩)
  | .operator text :: .word path :: rest =>
      match target? text descriptor path with
      | some redirection => do
          set rest
          pure (some redirection)
      | none => pure none
  | _ => pure none

/-- Read redirections. -/
def redirections : Nat → Reading (List Redirection)
  | 0 => failure
  | fuel + 1 => do
      match ← redirection? with
      | some redirection => do
          let others ← redirections fuel
          pure (redirection :: others)
      | none => pure []

/-- The variable and the value of an assignment. -/
def assignment? : Word → Option (String × Word)
  | .text value false :: rest =>
      let chars := value.toList
      let name := chars.takeWhile isNameChar
      match name, chars.drop name.length with
      | first :: _, '=' :: after =>
          if isNameStart first then
            some (String.ofList name,
              if after.isEmpty then rest else .text (String.ofList after) false :: rest)
          else none
      | _, _ => none
  | _ => none

/-- Read a simple command. -/
def simple : Nat → List (String × Word) → List Word → List Redirection → Reading Command
  | 0, _, _, _ => failure
  | fuel + 1, assignments, words, redirections => do
      match ← redirection? with
      | some redirection => simple fuel assignments words (redirections ++ [redirection])
      | none =>
          match (← get) with
          | .word next :: rest => do
              set rest
              match words, assignment? next with
              | [], some assignment =>
                  simple fuel (assignments ++ [assignment]) [] redirections
              | words, _ => simple fuel assignments (words ++ [next]) redirections
          | _ =>
              if assignments.isEmpty && words.isEmpty && redirections.isEmpty then failure
              else pure (.simple assignments words redirections)

/-- Read words up to the end of the line. -/
def wordList : Nat → Reading (List Word)
  | 0 => failure
  | fuel + 1 => do
      match (← get) with
      | .word next :: rest => do
          set rest
          let others ← wordList fuel
          pure (next :: others)
      | _ => pure []

/-- Read the further patterns of a choice and the parenthesis behind them. -/
def patterns : Nat → Reading (List Word)
  | 0 => failure
  | fuel + 1 => do
      let first ← word
      if ← atOperator "|" then
        advance
        let others ← patterns fuel
        pure (first :: others)
      else
        operator ")"
        pure [first]

/-- A function is defined here. -/
def atDefinition : Reading Bool := do
  match (← get) with
  | .word [.text _ false] :: .operator "(" :: .operator ")" :: _ => pure true
  | _ => pure false

mutual

/-- Read commands up to a word or an operator that ends the list. -/
def list : Nat → Reading Command
  | 0 => failure
  | fuel + 1 => do
      skipSeparators
      if ← atEnd then pure .nothing
      else
        let first ← chain fuel
        let separated ← atSeparator
        if separated then
          advance
          let second ← list fuel
          match second with
          | .nothing => pure first
          | second => pure (.sequence first second)
        else if ← atEnd then pure first
        else failure

/-- A separator of commands stands here. -/
def atSeparator : Reading Bool := do
  pure ((← atOperator ";") || (← atOperator "\n") || (← atOperator "&"))

/-- Read pipes that are joined by conditions. -/
def chain : Nat → Reading Command
  | 0 => failure
  | fuel + 1 => do
      let first ← pipeline fuel
      chainRest fuel first

/-- Read the further pipes of a chain. -/
def chainRest : Nat → Command → Reading Command
  | 0, _ => failure
  | fuel + 1, first => do
      if ← atOperator "&&" then
        advance
        skipLines
        let second ← pipeline fuel
        chainRest fuel (.both first second)
      else if ← atOperator "||" then
        advance
        skipLines
        let second ← pipeline fuel
        chainRest fuel (.either first second)
      else pure first

/-- Read commands that are joined by pipes. -/
def pipeline : Nat → Reading Command
  | 0 => failure
  | fuel + 1 => do
      if ← atWord "!" then
        advance
        let command ← pipeline fuel
        pure (.negated command)
      else
        let first ← command fuel
        pipelineRest fuel first

/-- Read the further commands of a pipe. -/
def pipelineRest : Nat → Command → Reading Command
  | 0, _ => failure
  | fuel + 1, first => do
      if ← atOperator "|" then
        advance
        skipLines
        let second ← command fuel
        pipelineRest fuel (.pipe first second)
      else pure first

/-- Read a command. -/
def command : Nat → Reading Command
  | 0 => failure
  | fuel + 1 => do
      if ← atDefinition then
        let name := (plainWord? (← get).head?).getD ""
        modify (·.drop 3)
        skipLines
        let body ← command fuel
        pure (.define name body)
      else if ← atOperator "(" then
        advance
        let body ← list fuel
        operator ")"
        redirect fuel (.subshell body)
      else
        match plainWord? (← get).head? with
        | some "\x7b" => do
            advance
            let body ← list fuel
            keyword "\x7d"
            redirect fuel body
        | some "if" => do
            advance
            let body ← branch fuel
            redirect fuel body
        | some "while" => do
            advance
            let body ← loop fuel true
            redirect fuel body
        | some "until" => do
            advance
            let body ← loop fuel false
            redirect fuel body
        | some "for" => do
            advance
            let body ← each fuel
            redirect fuel body
        | some "case" => do
            advance
            let subject ← word
            skipLines
            keyword "in"
            let found ← choices fuel
            redirect fuel (.choose subject found)
        | some text =>
            if closingWords.contains text then failure else simple fuel [] [] []
        | none => simple fuel [] [] []

/-- Read the redirections of a compound command. -/
def redirect : Nat → Command → Reading Command
  | 0, _ => failure
  | fuel + 1, body => do
      match ← redirections fuel with
      | [] => pure body
      | found => pure (.redirected body found)

/-- Read a condition and its branches, behind the word that begins them. -/
def branch : Nat → Reading Command
  | 0 => failure
  | fuel + 1 => do
      let condition ← list fuel
      keyword "then"
      let consequent ← list fuel
      if ← atWord "elif" then
        advance
        let alternative ← branch fuel
        pure (.branch condition consequent alternative)
      else if ← atWord "else" then
        advance
        let alternative ← list fuel
        keyword "fi"
        pure (.branch condition consequent alternative)
      else
        keyword "fi"
        pure (.branch condition consequent .nothing)

/-- Read a condition and the body that it repeats. -/
def loop : Nat → Bool → Reading Command
  | 0, _ => failure
  | fuel + 1, success => do
      let condition ← list fuel
      let body ← body fuel
      pure (.repeated success condition body)

/-- Read the body of a loop. -/
def body : Nat → Reading Command
  | 0 => failure
  | fuel + 1 => do
      keyword "do"
      let body ← list fuel
      keyword "done"
      pure body

/-- Read a loop over words, behind the word that begins it. -/
def each : Nat → Reading Command
  | 0 => failure
  | fuel + 1 => do
      match plainWord? (← get).head? with
      | none => failure
      | some name => do
          advance
          skipLines
          if ← atWord "in" then
            advance
            let words ← wordList fuel
            skipSeparators
            let body ← body fuel
            pure (.each name (some words) body)
          else
            skipSeparators
            let body ← body fuel
            pure (.each name none body)

/-- Read the choices of a case, up to its end. -/
def choices : Nat → Reading (List (List Word × Command))
  | 0 => failure
  | fuel + 1 => do
      skipLines
      if ← atWord "esac" then
        advance
        pure []
      else
        if ← atOperator "(" then advance
        let matched ← patterns fuel
        let body ← list fuel
        if ← atOperator ";;" then advance
        let others ← choices fuel
        pure ((matched, body) :: others)

end

end Reading

/-- The command that a script writes, if it is well formed. -/
def Command.ofScript? (script : String) : Option Command := do
  let tokens ← tokens? script
  let (command, rest) ← (Reading.list (6 * tokens.length + 6)).run tokens
  if rest.isEmpty then some command else none

end Concordance.Shell
