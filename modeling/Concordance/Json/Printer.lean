import Concordance.Binary64.Shortest
import Concordance.Json.Value

/-!
# Writing JSON

`Value.pretty` lays a value out over several lines, two blanks per level,
with one item or member on each line; empty arrays and objects stay on their
line, and nothing follows the last character.  Members are written in the
order in which the value holds them.
-/

namespace Concordance.Json

/-- The two last hexadecimal digits of a number. -/
def hexPair (number : Nat) : List Char :=
  [Nat.digitChar (number / 16 % 16), Nat.digitChar (number % 16)]

/-- How one character is written inside a JSON string. -/
def escapeChar (char : Char) : List Char :=
  match char with
  | '"' => ['\\', '"']
  | '\\' => ['\\', '\\']
  | '\x08' => ['\\', 'b']
  | '\x0c' => ['\\', 'f']
  | '\n' => ['\\', 'n']
  | '\r' => ['\\', 'r']
  | '\t' => ['\\', 't']
  | _ =>
      if char.toNat < 0x20 then '\\' :: 'u' :: '0' :: '0' :: hexPair char.toNat
      else [char]

/-- A text as a JSON string. -/
def quote (text : String) : List Char :=
  '"' :: (text.toList.flatMap escapeChar ++ ['"'])

/-- The text of a whole number. -/
def integerText (value : Int) : List Char :=
  match value with
  | .ofNat number => Nat.toDigits 10 number
  | .negSucc number => '-' :: Nat.toDigits 10 (number + 1)

/-- The text of a number. -/
def Number.text : Number → List Char
  | .integer value => integerText value
  | .float value => value.text

/-- A new line at some depth of nesting. -/
def newLine (depth : Nat) : List Char :=
  '\n' :: List.replicate (2 * depth) ' '

mutual

/-- A value over several lines, standing at some depth of nesting. -/
def Value.prettyAt (depth : Nat) : Value → List Char
  | .null => "null".toList
  | .bool true => "true".toList
  | .bool false => "false".toList
  | .number numeral => numeral.text
  | .string text => quote text
  | .array [] => ['[', ']']
  | .array (item :: items) =>
      '[' :: (newLine (depth + 1) ++ item.prettyAt (depth + 1)
        ++ Value.prettyItems depth items)
  | .object [] => ['\x7b', '\x7d']
  | .object ((key, value) :: members) =>
      '\x7b' :: (newLine (depth + 1) ++ quote key ++ ':' :: ' '
        :: value.prettyAt (depth + 1) ++ Value.prettyMembers depth members)

/-- The items after the first one of an array, with the closing bracket. -/
def Value.prettyItems (depth : Nat) : List Value → List Char
  | [] => newLine depth ++ [']']
  | item :: items =>
      ',' :: (newLine (depth + 1) ++ item.prettyAt (depth + 1)
        ++ Value.prettyItems depth items)

/-- The members after the first one of an object, with the closing brace. -/
def Value.prettyMembers (depth : Nat) : List (String × Value) → List Char
  | [] => newLine depth ++ ['\x7d']
  | (key, value) :: members =>
      ',' :: (newLine (depth + 1) ++ quote key ++ ':' :: ' '
        :: value.prettyAt (depth + 1) ++ Value.prettyMembers depth members)

end

/-- A value over several lines. -/
def Value.pretty (value : Value) : String :=
  String.ofList (value.prettyAt 0)

end Concordance.Json
