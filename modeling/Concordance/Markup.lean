import Concordance.Text.Search

/-!
# Text inside markup

Free text enters a page in two steps.  `escape` replaces the four characters
that mean something to markup by their entities, ampersand first so that no
entity is escaped again.  `wordBreak` then allows a line break inside a long
camel-case word, at each place where a small letter meets a capital one.
-/

namespace Concordance.Markup

/-- The entity of a character that markup reserves; other characters stand for themselves. -/
def escapeChar : Char → List Char
  | '&' => "&amp;".toList
  | '<' => "&lt;".toList
  | '>' => "&gt;".toList
  | '"' => "&quot;".toList
  | char => [char]

/-- Escape the reserved characters, one kind after the other. -/
def escapeChars (text : List Char) : List Char :=
  let ampersands := Text.replaceChar '&' "&amp;".toList text
  let openings := Text.replaceChar '<' "&lt;".toList ampersands
  let closings := Text.replaceChar '>' "&gt;".toList openings
  Text.replaceChar '"' "&quot;".toList closings

/-- The text in which markup shows exactly the given text. -/
def escape (text : String) : String :=
  String.ofList (escapeChars text.toList)

/-- The small letters `a` to `z`. -/
def isSmallLetter (char : Char) : Bool :=
  'a' ≤ char && char ≤ 'z'

/-- The capital letters `A` to `Z`. -/
def isCapitalLetter (char : Char) : Bool :=
  'A' ≤ char && char ≤ 'Z'

/-- The mark that allows a line break. -/
def breakMark : List Char :=
  "<wbr/>".toList

/--
Put a break mark into each pair of a small and a capital letter, going on
behind the pair.
-/
def wordBreakChars : List Char → List Char
  | [] => []
  | [last] => [last]
  | first :: second :: rest =>
      if isSmallLetter first && isCapitalLetter second then
        first :: (breakMark ++ second :: wordBreakChars rest)
      else
        first :: wordBreakChars (second :: rest)

/-- Allow line breaks at the camel-case boundaries of a text. -/
def wordBreak (text : String) : String :=
  String.ofList (wordBreakChars text.toList)

end Concordance.Markup
