import Concordance.Text.HiddenCharacters

/-!
# Quoted text in messages

A message shows a text it complains about between double quotes.  Quotes,
backslashes and the usual control characters are written with a backslash;
every other character that has no glyph of its own is written as its code
point in hexadecimal.
-/

namespace Concordance.Text

/-- The lower-case hexadecimal digits of a number, without leading zeros. -/
def hexDigits (number : Nat) : List Char :=
  Nat.toDigits 16 number

/-- Search the ascending ranges from position `low` up to `high` by halving. -/
def inRanges
    (ranges : Array (Nat × Nat))
    (codePoint low high : Nat) : Bool :=
  if low < high then
    let middle := (low + high) / 2
    match ranges[middle]? with
    | none => false
    | some (first, last) =>
        if codePoint < first then inRanges ranges codePoint low middle
        else if last < codePoint then
          inRanges ranges codePoint (middle + 1) high
        else true
  else false
termination_by high - low

/-- Whether a character has no glyph of its own. -/
def isHidden (char : Char) : Bool :=
  inRanges hiddenRanges char.toNat 0 hiddenRanges.size

/-- How one character is written between quotes. -/
def quoteChar (char : Char) : List Char :=
  match char with
  | '\x00' => ['\\', '0']
  | '\t' => ['\\', 't']
  | '\r' => ['\\', 'r']
  | '\n' => ['\\', 'n']
  | '"' => ['\\', '"']
  | '\\' => ['\\', '\\']
  | _ =>
      if isHidden char then
        "\\u\x7b".toList ++ hexDigits char.toNat ++ ['\x7d']
      else [char]

/-- A text between double quotes. -/
def quoted (text : String) : String :=
  String.ofList ('"' :: text.toList.flatMap quoteChar ++ ['"'])

end Concordance.Text
