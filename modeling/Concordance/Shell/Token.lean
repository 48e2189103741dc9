import Concordance.Shell.Script

/-!
# Shell tokens

A script is cut into words and operators.  Blanks separate words, a line
break ends a command, and a number sign in front of a word begins a comment.
Within a word, quotes and backslashes protect characters, and a dollar sign
or a backquote marks a place where something is put in.

A text that the script brings along for a command stands on the lines after
it; it is cut out while the token that asks for it is read.
-/

namespace Concordance.Shell

/-- A token of a script. -/
inductive Token where
  | word (word : Word)
  | operator (text : String)
  /-- The number of a descriptor, directly in front of a redirection. -/
  | descriptor (number : Nat)
  /-- A text that the script brings along. -/
  | here (text : Word)
  deriving DecidableEq, Repr

/-- Whether a character may begin a name. -/
def isNameStart (char : Char) : Bool :=
  char.isAlpha || char == '_'

/-- Whether a character may stand in a name. -/
def isNameChar (char : Char) : Bool :=
  char.isAlphanum || char == '_'

/-- Whether a character stands for a parameter of its own. -/
def isSpecialParameter (char : Char) : Bool :=
  char.isDigit || "@*#?$!-".toList.contains char

/-- Whether a character ends a word. -/
def endsWord (char : Char) : Bool :=
  " \t\n;&|()<>".toList.contains char

/-- What stands in front of a closing character, and what stands behind it. -/
def until? (closing : Char) : List Char → Option (List Char × List Char)
  | [] => none
  | char :: rest =>
      if char = closing then some ([], rest)
      else (until? closing rest).map fun (inside, after) => (char :: inside, after)

/-- What is left to be closed while a nested text is looked through. -/
structure Nesting where
  depth : Nat := 0
  quote : Option Char := none
  escaped : Bool := false

/-- The text up to the character that closes it, and what stands behind it. -/
def nested? (opening closing : Char) : Nesting → List Char → Option (List Char × List Char)
  | _, [] => none
  | nesting, char :: rest =>
      let goOn (next : Nesting) : Option (List Char × List Char) :=
        (nested? opening closing next rest).map fun (inside, after) =>
          (char :: inside, after)
      if nesting.escaped then goOn { nesting with escaped := false }
      else
        match nesting.quote with
        | some quote =>
            if char = quote then goOn { nesting with quote := none }
            else if char = '\\' && quote = '"' then goOn { nesting with escaped := true }
            else goOn nesting
        | none =>
            if char = '\\' then goOn { nesting with escaped := true }
            else if char = '"' || char = '\'' then goOn { nesting with quote := some char }
            else if char = opening then goOn { nesting with depth := nesting.depth + 1 }
            else if char = closing then
              match nesting.depth with
              | 0 => some ([], rest)
              | depth + 1 => goOn { nesting with depth := depth }
            else goOn nesting

/-- The operation that stands behind a parameter's name in braces. -/
def modifier? (chars : List Char) : Option (Option Modifier) :=
  let make (emptyIsMissing : Bool) (operation : String) (operand : List Char) :=
    some (some ⟨emptyIsMissing, operation, String.ofList operand⟩)
  match chars with
  | [] => some none
  | ':' :: '-' :: rest => make true "-" rest
  | ':' :: '=' :: rest => make true "=" rest
  | ':' :: '+' :: rest => make true "+" rest
  | '-' :: rest => make false "-" rest
  | '=' :: rest => make false "=" rest
  | '+' :: rest => make false "+" rest
  | '#' :: '#' :: rest => make false "##" rest
  | '#' :: rest => make false "#" rest
  | '%' :: '%' :: rest => make false "%%" rest
  | '%' :: rest => make false "%" rest
  | _ => none

/-- The name at the beginning of a text in braces, and what stands behind it. -/
def bracedName (chars : List Char) : String × List Char :=
  match chars with
  | char :: rest =>
      if isNameStart char then
        (String.ofList (chars.takeWhile isNameChar), chars.dropWhile isNameChar)
      else if char.isDigit then
        (String.ofList (chars.takeWhile Char.isDigit), chars.dropWhile Char.isDigit)
      else if isSpecialParameter char then (String.singleton char, rest)
      else ("", chars)
  | [] => ("", [])

/-- The piece that a text in braces writes. -/
def braced? (quoted : Bool) (chars : List Char) : Option Piece :=
  match chars with
  | '#' :: char :: rest =>
      if isNameStart char || char.isDigit then
        some (.size (String.ofList (char :: rest)))
      else none
  | _ => do
      let (name, rest) := bracedName chars
      if name = "" then none
      else do
        let modifier ← modifier? rest
        pure (.parameter name modifier quoted)

/-- The piece that stands behind a dollar sign, and what follows it. -/
def dollar? (quoted : Bool) : List Char → Option (Piece × List Char)
  | '(' :: rest => do
      let (script, after) ← nested? '(' ')' {} rest
      pure (.output (String.ofList script) quoted, after)
  | '\x7b' :: rest => do
      let (content, after) ← nested? '\x7b' '\x7d' {} rest
      let piece ← braced? quoted content
      pure (piece, after)
  | char :: rest =>
      if isNameStart char then
        some (.parameter (String.ofList ((char :: rest).takeWhile isNameChar)) none quoted,
          (char :: rest).dropWhile isNameChar)
      else if isSpecialParameter char then
        some (.parameter (String.singleton char) none quoted, rest)
      else some (.text "$" quoted, char :: rest)
  | [] => some (.text "$" quoted, [])

/-- A script between backquotes, where backslashes protect some characters. -/
def unescapeBackquoted : List Char → List Char
  | '\\' :: char :: rest =>
      if char == '\x60' || char == '\\' || char == '$' then
        char :: unescapeBackquoted rest
      else '\\' :: char :: unescapeBackquoted rest
  | char :: rest => char :: unescapeBackquoted rest
  | [] => []

/-- Put a piece in front of others, together with the first one if both are alike text. -/
def consPiece : Piece → Word → Word
  | .text first quoted, .text second alsoQuoted :: rest =>
      if quoted = alsoQuoted then .text (first ++ second) quoted :: rest
      else .text first quoted :: .text second alsoQuoted :: rest
  | piece, word => piece :: word

/--
Read text in which only dollar signs, backquotes and some backslashes count,
up to a closing character.
-/
def readQuoted (closing : Option Char) : Nat → List Char → Option (Word × List Char)
  | 0, _ => none
  | _ + 1, [] => if closing.isNone then some ([], []) else none
  | fuel + 1, char :: rest =>
      let goOn (piece : Piece) (rest : List Char) : Option (Word × List Char) :=
        (readQuoted closing fuel rest).map fun (word, after) =>
          (consPiece piece word, after)
      if closing = some char then some ([], rest)
      else
        match char, rest with
        | '\\', '\n' :: rest => readQuoted closing fuel rest
        | '\\', next :: rest =>
            if next == '$' || next == '\x60' || next == '\\' || closing = some next then
              goOn (.text (String.singleton next) true) rest
            else goOn (.text (String.ofList ['\\', next]) true) rest
        | '$', rest => do
            let (piece, after) ← dollar? true rest
            goOn piece after
        | '\x60', rest => do
            let (script, after) ← until? '\x60' rest
            goOn (.output (String.ofList (unescapeBackquoted script)) true) after
        | char, rest => goOn (.text (String.singleton char) true) rest

/-- Read a word. -/
def readWord : Nat → List Char → Option (Word × List Char)
  | 0, _ => none
  | _ + 1, [] => some ([], [])
  | fuel + 1, char :: rest =>
      let goOn (piece : Piece) (rest : List Char) : Option (Word × List Char) :=
        (readWord fuel rest).map fun (word, after) => (consPiece piece word, after)
      if endsWord char then some ([], char :: rest)
      else
        match char, rest with
        | '\\', '\n' :: rest => readWord fuel rest
        | '\\', next :: rest => goOn (.text (String.singleton next) true) rest
        | '\'', rest => do
            let (inside, after) ← until? '\'' rest
            goOn (.text (String.ofList inside) true) after
        | '"', rest => do
            let (inside, after) ← readQuoted (some '"') fuel rest
            let (word, after) ← readWord fuel after
            let inside := if inside.isEmpty then [.text "" true] else inside
            pure (inside.foldr consPiece word, after)
        | '$', rest => do
            let (piece, after) ← dollar? false rest
            goOn piece after
        | '\x60', rest => do
            let (script, after) ← until? '\x60' rest
            goOn (.output (String.ofList (unescapeBackquoted script)) false) after
        | char, rest => goOn (.text (String.singleton char) false) rest

/-- The operator at the beginning of a text, and what follows it. -/
def operator? : List Char → Option (String × List Char)
  | '&' :: '&' :: rest => some ("&&", rest)
  | '|' :: '|' :: rest => some ("||", rest)
  | ';' :: ';' :: rest => some (";;", rest)
  | '>' :: '>' :: rest => some (">>", rest)
  | '>' :: '&' :: rest => some (">&", rest)
  | '>' :: '|' :: rest => some (">", rest)
  | '<' :: '&' :: rest => some ("<&", rest)
  | char :: rest =>
      if "&|;()<>".toList.contains char then some (String.singleton char, rest)
      else none
  | [] => none

/-- The lines in front of the first one that is equal to an end, and what follows that one. -/
def linesUntil (stripTabs : Bool) (ending : List Char) :
    Nat → List Char → List Char × List Char
  | 0, chars => (chars, [])
  | _ + 1, [] => ([], [])
  | fuel + 1, chars =>
      let raw := chars.takeWhile (· != '\n')
      let line := if stripTabs then raw.dropWhile (· == '\t') else raw
      let rest := (chars.drop raw.length).drop 1
      if line = ending then ([], rest)
      else
        let (inside, after) := linesUntil stripTabs ending fuel rest
        (line ++ '\n' :: inside, after)

/-- The text of a word without its quotes. -/
def unquotedText (word : Word) : String :=
  String.join (word.map fun
    | .text value _ => value
    | _ => "")

/-- Whether a word has quoted parts. -/
def hasQuotes (word : Word) : Bool :=
  word.any fun
    | .text _ quoted => quoted
    | _ => false

/-- Read the text that a script brings along: the token, and the script without the text. -/
def readHere (fuel : Nat) (chars : List Char) : Option (Token × List Char) := do
  let (stripTabs, chars) := match chars with
    | '-' :: rest => (true, rest)
    | _ => (false, chars)
  let (ending, rest) ← readWord fuel (chars.dropWhile (· == ' '))
  let line := rest.takeWhile (· != '\n')
  let (inside, after) := linesUntil stripTabs (unquotedText ending).toList fuel
    ((rest.drop line.length).drop 1)
  let word ←
    if hasQuotes ending then some [.text (String.ofList inside) true]
    else (readQuoted none fuel inside).map Prod.fst
  pure (.here word, line ++ '\n' :: after)

/-- The tokens of a script. -/
def readTokens : Nat → List Char → Option (List Token)
  | 0, _ => none
  | _ + 1, [] => some []
  | fuel + 1, char :: rest =>
      if char = ' ' || char = '\t' then readTokens fuel rest
      else if char = '\n' then (.operator "\n" :: ·) <$> readTokens fuel rest
      else if char = '#' then readTokens fuel (rest.dropWhile (· != '\n'))
      else
        match char, rest with
        | '\\', '\n' :: rest => readTokens fuel rest
        | '<', '<' :: rest => do
            let (token, after) ← readHere fuel rest
            let tokens ← readTokens fuel after
            pure (.operator "<<" :: token :: tokens)
        | char, rest =>
            match operator? (char :: rest) with
            | some (text, after) => (.operator text :: ·) <$> readTokens fuel after
            | none =>
                let digits := (char :: rest).takeWhile Char.isDigit
                let behind := (char :: rest).drop digits.length
                if !digits.isEmpty && behind.head?.any fun next => next == '<' || next == '>' then
                  let number := (String.ofList digits).toNat?.getD 0
                  (.descriptor number :: ·) <$> readTokens fuel behind
                else do
                  let (word, after) ← readWord fuel (char :: rest)
                  let tokens ← readTokens fuel after
                  pure (.word word :: tokens)

/-- The tokens of a script, unless a quote is left open. -/
def tokens? (script : String) : Option (List Token) :=
  readTokens (2 * script.length + 2) script.toList

end Concordance.Shell
