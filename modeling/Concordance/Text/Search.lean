/-!
# Finding and replacing in a text

A text is searched as its list of characters.  `splitFirst?` cuts a text
around the first occurrence of a pattern; the part before the cut is the
shortest one after which the pattern stands, and the empty pattern stands at
the very beginning.  Everything else in this module is built from that cut or
from a replacement character by character.
-/

namespace Concordance.Text

/--
Cut a text around the first occurrence of a pattern, giving what stands
before and what stands after it.
-/
def splitFirst?
    (pattern : List Char) :
    List Char → Option (List Char × List Char)
  | [] => if pattern.isEmpty then some ([], []) else none
  | char :: rest =>
      match pattern.isPrefixOf? (char :: rest) with
      | some after => some ([], after)
      | none =>
          (splitFirst? pattern rest).map fun (before, after) =>
            (char :: before, after)

/-- Whether a pattern occurs in a text. -/
def contains (text pattern : String) : Bool :=
  (splitFirst? pattern.toList text.toList).isSome

/-- Replace the first occurrence of a pattern, if there is one. -/
def replaceFirst (text pattern replacement : String) : String :=
  match splitFirst? pattern.toList text.toList with
  | some (before, after) =>
      String.ofList before ++ replacement ++ String.ofList after
  | none => text

/-- Replace every occurrence of one character by a text. -/
def replaceChar
    (target : Char)
    (replacement : List Char)
    (text : List Char) : List Char :=
  text.flatMap fun char => if char = target then replacement else [char]

/-- Join texts with a separator between neighbours. -/
def joinWith (separator : List Char) : List (List Char) → List Char
  | [] => []
  | [last] => last
  | first :: second :: rest =>
      first ++ separator ++ joinWith separator (second :: rest)

end Concordance.Text
