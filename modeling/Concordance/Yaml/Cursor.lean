/-!
# A place in a YAML text

A cursor is what remains of a text, with the number of characters, lines and
columns in front of it.  Line breaks are carriage return, line feed, the two
together, next line, and the separators of lines and paragraphs; in a scalar
all but the last two become a line feed.
-/

namespace Concordance.Yaml

/-- A space or a tab. -/
def isBlank (char : Char) : Bool :=
  char == ' ' || char == '\t'

/-- A character that ends a line. -/
def isBreak (char : Char) : Bool :=
  char == '\r' || char == '\n' || char == '\u0085' || char == '\u2028'
    || char == '\u2029'

/-- The mark that may stand in front of a line. -/
def byteOrderMark : Char := '\uFEFF'

/-- A character that may occur in a YAML text. -/
def isAllowed (char : Char) : Bool :=
  let code := char.toNat
  code == 0x09 || code == 0x0A || code == 0x0D
    || (0x20 ≤ code && code ≤ 0x7E) || code == 0x85
    || (0xA0 ≤ code && code ≤ 0xD7FF) || (0xE000 ≤ code && code ≤ 0xFFFD)
    || (0x10000 ≤ code && code ≤ 0x10FFFF)

/-- A letter, a digit, an underscore or a hyphen. -/
def isWordChar (char : Char) : Bool :=
  char.isAlphanum || char == '_' || char == '-'

/-- What remains of a text, and where it begins. -/
structure Cursor where
  rest : List Char
  index : Nat := 0
  line : Nat := 0
  column : Nat := 0
  deriving Repr

/-- Whether a text is at its end, at a blank or at a line break. -/
def atGap : List Char → Bool
  | [] => true
  | char :: _ => isBlank char || isBreak char

/-- Whether a text is at its end or at a line break. -/
def atLineEnd : List Char → Bool
  | [] => true
  | char :: _ => isBreak char

/-- Whether a text begins with the marker of a document's start or end. -/
def atDocumentMarker : List Char → Bool
  | '-' :: '-' :: '-' :: rest | '.' :: '.' :: '.' :: rest => atGap rest
  | _ => false

namespace Cursor

/-- The first character. -/
def peek? (cursor : Cursor) : Option Char :=
  cursor.rest.head?

/-- Whether the next character is a given one. -/
def isAt (cursor : Cursor) (char : Char) : Bool :=
  cursor.rest.head? == some char

/-- The text behind the first character. -/
def behind (cursor : Cursor) : List Char :=
  cursor.rest.drop 1

/-- Go on by a number of characters of the same line. -/
def skip (cursor : Cursor) (count : Nat) : Cursor :=
  { cursor with
    rest := cursor.rest.drop count
    index := cursor.index + count
    column := cursor.column + count }

/-- Go on over characters of the same line as long as they satisfy a condition. -/
def skipWhile (cursor : Cursor) (condition : Char → Bool) : Cursor :=
  cursor.skip (cursor.rest.takeWhile condition).length

/-- Go on over blanks. -/
def skipBlanks (cursor : Cursor) : Cursor :=
  cursor.skipWhile isBlank

/-- Go on to the end of the line. -/
def skipToLineEnd (cursor : Cursor) : Cursor :=
  cursor.skipWhile fun char => !isBreak char

/-- Go on over a line break if there is one: what it contributes to a scalar, and the next line. -/
def takeBreak (cursor : Cursor) : List Char × Cursor :=
  let next (count : Nat) : Cursor :=
    ⟨cursor.rest.drop count, cursor.index + count, cursor.line + 1, 0⟩
  match cursor.rest with
  | '\r' :: '\n' :: _ => (['\n'], next 2)
  | char :: _ =>
      if char == '\u2028' || char == '\u2029' then ([char], next 1)
      else if isBreak char then (['\n'], next 1)
      else ([], cursor)
  | [] => ([], cursor)

/-- Go on over a line break if there is one. -/
def skipBreak (cursor : Cursor) : Cursor :=
  cursor.takeBreak.2

end Cursor

end Concordance.Yaml
