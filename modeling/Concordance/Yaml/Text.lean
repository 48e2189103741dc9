import Concordance.Json.Token
import Concordance.Yaml.Cursor

/-!
# Scalars as they are written

The three ways of writing a scalar: plain, between quotes, and as a block of
indented lines.  In the first two a line break is folded: one break becomes a
blank, of several the first one vanishes, and blanks around them are dropped.
A block keeps its lines apart, or folds the breaks between lines that do not
begin with a blank; what happens to the breaks behind the last line is told
in front of the block.
-/

namespace Concordance.Yaml

/-! ### Folding -/

/-- A scalar that is being read; the characters stand in reverse. -/
structure Folding where
  text : List Char := []
  /-- Blanks behind the last word of the line. -/
  blanks : List Char := []
  /-- The first line break behind the last word. -/
  firstBreak : List Char := []
  /-- The further line breaks. -/
  moreBreaks : List Char := []
  /-- Whether a line break stands behind the last word. -/
  broken : Bool := false

namespace Folding

/-- Take a blank: it counts only if no line break stands before it. -/
def takeBlank (folding : Folding) (char : Char) : Folding :=
  if folding.broken then folding
  else { folding with blanks := char :: folding.blanks }

/-- Take a line break. -/
def takeBreak (folding : Folding) (breakText : List Char) : Folding :=
  if folding.broken then
    { folding with moreBreaks := breakText.reverse ++ folding.moreBreaks }
  else
    { folding with blanks := [], firstBreak := breakText, broken := true }

/-- Put what stands between two words behind the first of them. -/
def join (folding : Folding) : Folding :=
  let gap :=
    if !folding.broken then folding.blanks
    else if folding.firstBreak.head? == some '\n' then
      (if folding.moreBreaks.isEmpty then [' '] else folding.moreBreaks)
    else folding.moreBreaks ++ folding.firstBreak.reverse
  { text := gap ++ folding.text }

/-- Take a character of a word. -/
def takeChar (folding : Folding) (char : Char) : Folding :=
  { folding with text := char :: folding.text }

/-- The text read so far. -/
def result (folding : Folding) : String :=
  String.ofList folding.text.reverse

end Folding

/-- Where in a scalar a character stands. -/
inductive Phase where
  | start
  | word
  | gap
  deriving DecidableEq

/-! ### Plain scalars -/

/-- A character that ends a plain scalar in a flow collection. -/
def isFlowIndicator (char : Char) : Bool :=
  char == ',' || char == '[' || char == ']' || char == '\x7b' || char == '\x7d'

/-- Whether a colon is followed by something that must not follow it in a flow collection. -/
def atMisplacedColon : List Char → Bool
  | ':' :: next :: _ => isFlowIndicator next || next == '?'
  | _ => false

/-- Whether a plain scalar ends in front of a text that begins with no blank. -/
def endsPlain (inFlow : Bool) : List Char → Bool
  | ':' :: rest => atGap rest
  | char :: _ => inFlow && isFlowIndicator char
  | [] => true

/--
Read a plain scalar.  It goes on over line breaks as long as the lines are
indented; `none` is an error.
-/
def readPlain (inFlow : Bool) (indent : Int) :
    (fuel : Nat) → Phase → Folding → Cursor → Option (Folding × Cursor)
  | 0, _, _, _ => none
  | fuel + 1, phase, folding, cursor =>
      match cursor.rest with
      | [] => some (folding, cursor)
      | char :: _ =>
          if isBlank char then
            if folding.broken && cursor.column < indent && char == '\t' then none
            else
              readPlain inFlow indent fuel .gap (folding.takeBlank char)
                (cursor.skip 1)
          else if isBreak char then
            let (breakText, next) := cursor.takeBreak
            readPlain inFlow indent fuel .gap (folding.takeBreak breakText) next
          else if phase = .gap && !inFlow && cursor.column < indent then
            some (folding, cursor)
          else if phase != .word
              && ((cursor.column == 0 && atDocumentMarker cursor.rest)
                || char == '#') then
            some (folding, cursor)
          else if inFlow && atMisplacedColon cursor.rest then none
          else if endsPlain inFlow cursor.rest then some (folding, cursor)
          else
            let joined := if phase = .gap then folding.join else folding
            readPlain inFlow indent fuel .word (joined.takeChar char)
              (cursor.skip 1)

/-! ### Quoted scalars -/

/-- The character of a single-letter escape. -/
def simpleEscape? : Char → Option Char
  | '0' => some '\x00'
  | 'a' => some '\x07'
  | 'b' => some '\x08'
  | 't' | '\t' => some '\t'
  | 'n' => some '\n'
  | 'v' => some '\x0b'
  | 'f' => some '\x0c'
  | 'r' => some '\r'
  | 'e' => some '\x1b'
  | ' ' => some ' '
  | '"' => some '"'
  | '/' => some '/'
  | '\\' => some '\\'
  | 'N' => some '\u0085'
  | '_' => some '\u00a0'
  | 'L' => some '\u2028'
  | 'P' => some '\u2029'
  | _ => none

/-- How many hexadecimal digits follow the letter of an escape. -/
def escapeLength? : Char → Option Nat
  | 'x' => some 2
  | 'u' => some 4
  | 'U' => some 8
  | _ => none

/-- The number that hexadecimal digits write. -/
def hexNumber? (digits : List Char) : Option Nat :=
  digits.foldlM (fun value digit =>
    (Json.hexValue? digit).map fun digit => value * 16 + digit) 0

/-- Read the escape behind a backslash: its character and how many characters it takes. -/
def readEscape? : List Char → Option (Char × Nat)
  | [] => none
  | letter :: rest =>
      match simpleEscape? letter, escapeLength? letter with
      | some char, _ => some (char, 1)
      | none, some length => do
          let digits := rest.take length
          if digits.length < length then none
          else
            let code ← hexNumber? digits
            if (0xD800 ≤ code && code ≤ 0xDFFF) || 0x10FFFF < code then none
            else some (Char.ofNat code, length + 1)
      | none, none => none

/-- Read a scalar between quotes, behind the opening one; `none` is an error. -/
def readQuoted (single : Bool) :
    (fuel : Nat) → Phase → Folding → Cursor → Option (Folding × Cursor)
  | 0, _, _, _ => none
  | fuel + 1, phase, folding, cursor =>
      match cursor.rest with
      | [] => none
      | char :: rest =>
          if isBlank char then
            readQuoted single fuel .gap (folding.takeBlank char) (cursor.skip 1)
          else if isBreak char then
            let (breakText, next) := cursor.takeBreak
            readQuoted single fuel .gap (folding.takeBreak breakText) next
          else
            let folding := if phase = .gap then folding.join else folding
            if phase != .word && cursor.column == 0
                && atDocumentMarker cursor.rest then none
            else if single then
              if char == '\'' then
                match rest with
                | '\'' :: _ =>
                    readQuoted single fuel .word (folding.takeChar '\'')
                      (cursor.skip 2)
                | _ => some (folding, cursor.skip 1)
              else
                readQuoted single fuel .word (folding.takeChar char)
                  (cursor.skip 1)
            else if char == '"' then some (folding, cursor.skip 1)
            else if char == '\\' then
              if rest.head?.any isBreak then
                readQuoted single fuel .gap { folding with broken := true }
                  (cursor.skip 1).skipBreak
              else
                match readEscape? rest with
                | some (escaped, length) =>
                    readQuoted single fuel .word (folding.takeChar escaped)
                      (cursor.skip (length + 1))
                | none => none
            else
              readQuoted single fuel .word (folding.takeChar char)
                (cursor.skip 1)

/-! ### Block scalars -/

/-- What becomes of the line breaks behind the last line of a block. -/
inductive Chomping where
  /-- All are dropped. -/
  | strip
  /-- One is kept. -/
  | clip
  /-- All are kept. -/
  | keep
  deriving DecidableEq

/-- Read the signs behind the indicator of a block: chomping and indentation in either order. -/
def readBlockHeader (cursor : Cursor) : Option (Chomping × Nat × Cursor) :=
  let chomping? (cursor : Cursor) : Option Chomping :=
    if cursor.isAt '+' then some .keep
    else if cursor.isAt '-' then some .strip
    else none
  let digit? (cursor : Cursor) : Option Nat :=
    cursor.peek?.bind fun char =>
      if char.isDigit then some (char.toNat - '0'.toNat) else none
  match chomping? cursor with
  | some chomping =>
      let cursor := cursor.skip 1
      match digit? cursor with
      | some 0 => none
      | some increment => some (chomping, increment, cursor.skip 1)
      | none => some (chomping, 0, cursor)
  | none =>
      match digit? cursor with
      | some 0 => none
      | some increment =>
          let cursor := cursor.skip 1
          match chomping? cursor with
          | some chomping => some (chomping, increment, cursor.skip 1)
          | none => some (.clip, increment, cursor)
      | none => some (.clip, 0, cursor)

/--
Read blanks and line breaks in front of the next line of a block.  An indent
of zero is not known yet; `deepest` is the deepest indentation met.
-/
def readBlockBreaks (indent : Nat) :
    (fuel deepest : Nat) → List Char → Cursor → Option (List Char × Nat × Cursor)
  | 0, _, _, _ => none
  | fuel + 1, deepest, breaks, cursor =>
      let spaces := (cursor.rest.takeWhile (· == ' ')).length
      let indentation :=
        if indent == 0 then spaces else min spaces (indent - cursor.column)
      let cursor := cursor.skip indentation
      let deepest := max deepest cursor.column
      if (indent == 0 || cursor.column < indent) && cursor.isAt '\t' then none
      else
        match cursor.rest with
        | char :: _ =>
            if isBreak char then
              let (breakText, next) := cursor.takeBreak
              readBlockBreaks indent fuel deepest (breakText.reverse ++ breaks) next
            else some (breaks, deepest, cursor)
        | [] => some (breaks, deepest, cursor)

/-- A block that is being read; the characters stand in reverse. -/
structure Block where
  text : List Char := []
  /-- The line break behind the last line. -/
  firstBreak : List Char := []
  /-- The further line breaks. -/
  moreBreaks : List Char := []
  /-- Whether the last line begins with a blank. -/
  leadingBlank : Bool := false

/-- Read the lines of a block. -/
def readBlockLines (literal : Bool) (indent : Nat) :
    (fuel : Nat) → Block → Cursor → Option (Block × Cursor)
  | 0, _, _ => none
  | fuel + 1, block, cursor =>
      if cursor.column != indent || cursor.rest.isEmpty then some (block, cursor)
      else
        let blank := cursor.peek?.any isBlank
        let folds :=
          !literal && block.firstBreak.head? == some '\n'
            && !block.leadingBlank && !blank
        let gap :=
          if folds then (if block.moreBreaks.isEmpty then [' '] else [])
          else block.firstBreak
        let line := cursor.rest.takeWhile fun char => !isBreak char
        let text := line.reverse ++ (block.moreBreaks ++ (gap ++ block.text))
        let (breakText, next) := (cursor.skip line.length).takeBreak
        match readBlockBreaks indent (next.rest.length + 1) 0 [] next with
        | some (breaks, _, next) =>
            readBlockLines literal indent fuel
              ⟨text, breakText, breaks, blank⟩ next
        | none => none

/-- Read a block scalar behind its indicator, in a collection with a given indentation. -/
def readBlock (literal : Bool) (parentIndent : Int) (cursor : Cursor) :
    Option (String × Cursor) := do
  let (chomping, increment, cursor) ← readBlockHeader cursor
  let cursor := cursor.skipBlanks
  let cursor := if cursor.isAt '#' then cursor.skipToLineEnd else cursor
  if !atLineEnd cursor.rest then none
  else
    let cursor := cursor.skipBreak
    let given :=
      if increment == 0 then 0 else (max parentIndent 0).toNat + increment
    let fuel := cursor.rest.length + 1
    let (breaks, deepest, cursor) ← readBlockBreaks given fuel 0 [] cursor
    let indent :=
      if given == 0 then max (max deepest (parentIndent + 1).toNat) 1 else given
    let (block, cursor) ←
      readBlockLines literal indent fuel { moreBreaks := breaks } cursor
    let tail := match chomping with
      | .strip => []
      | .clip => block.firstBreak
      | .keep => block.moreBreaks ++ block.firstBreak
    pure (String.ofList (tail ++ block.text).reverse, cursor)

end Concordance.Yaml
