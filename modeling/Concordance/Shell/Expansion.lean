import Concordance.Glob.Expansion
import Concordance.Shell.Session

/-!
# Expanding the words of a command

Parameters and outputs are put into a word; what comes from outside of
quotes is then split at blanks, and a field with wildcards outside of quotes
becomes the paths that it matches, unless there are none.  Names with a
leading dot are matched only by a pattern that begins with a dot as well.
-/

namespace Concordance.Shell

/-- What a word contains once everything has been put in. -/
inductive Fragment where
  | char (char : Char) (quoted : Bool)
  /-- A blank between fields. -/
  | gap (char : Char)
  /-- The field is there even if it is empty. -/
  | present
  deriving DecidableEq, Repr

/-- A text put in, quoted or not. -/
def fragmentsOf (quoted : Bool) (text : String) : List Fragment :=
  if quoted then .present :: text.toList.map fun char => .char char true
  else
    text.toList.map fun char =>
      if char == ' ' || char == '\t' || char == '\n' then .gap char else .char char false

/-- A text that stands in the script itself. -/
def literalFragments (quoted : Bool) (text : String) : List Fragment :=
  (if quoted then [Fragment.present] else [])
    ++ text.toList.map fun char => .char char quoted

/-- The arguments, each in a field of its own. -/
def argumentFragments (quoted : Bool) : List String → List Fragment
  | [] => []
  | [argument] => fragmentsOf quoted argument
  | argument :: arguments =>
      fragmentsOf quoted argument ++ .gap ' ' :: argumentFragments quoted arguments

/-- A text without the line breaks at its end. -/
def trimLineEnds (text : String) : String :=
  String.ofList (text.toList.reverse.dropWhile (· == '\n')).reverse

/-- The fields of what a word contains. -/
def fields : List Fragment → Option (List (Char × Bool)) → List (List (Char × Bool))
  | [], current => current.toList
  | .gap _ :: rest, some field => field :: fields rest none
  | .gap _ :: rest, none => fields rest none
  | .present :: rest, current => fields rest (some (current.getD []))
  | .char char quoted :: rest, current =>
      fields rest (some (current.getD [] ++ [(char, quoted)]))

/-- The text of a field. -/
def fieldText (field : List (Char × Bool)) : String :=
  String.ofList (field.map Prod.fst)

/-- Whether a character is a wildcard. -/
def isWildcard (char : Char) : Bool :=
  char == '*' || char == '?' || char == '['

/-- A field as a pattern for paths: quoted wildcards stand in brackets, stars stand alone. -/
def patternChars : List (Char × Bool) → List Char
  | ('*', false) :: ('*', false) :: rest => patternChars (('*', false) :: rest)
  | (char, quoted) :: rest =>
      (if quoted && isWildcard char then ['[', char, ']'] else [char])
        ++ patternChars rest
  | [] => []

/-- Whether no component of a path is hidden where the pattern does not say so. -/
def showsOnlyAsked (pattern path : String) : Bool :=
  ((Text.split '/' pattern).zip (Text.split '/' path)).all fun (asked, name) =>
    !name.startsWith "." || asked.startsWith "."

/-- The paths that a field matches, or the field itself. -/
def expandField
    (files : FileSystem)
    (directory : Location)
    (field : List (Char × Bool)) : List String :=
  let plain := fieldText field
  if field.any fun (char, quoted) => isWildcard char && !quoted then
    let pattern := String.ofList (patternChars field)
    match Glob.Route.ofText pattern with
    | .error _ => [plain]
    | .ok route =>
        match (route.expand files directory).map Path.text
          |>.filter (showsOnlyAsked pattern) with
        | [] => [plain]
        | paths => paths.mergeSort
  else [plain]

/-- What a word contains as a pattern: quoted characters stand for themselves. -/
def patternTokens : Nat → List (Char × Bool) → List Glob.Token
  | 0, _ | _, [] => []
  | fuel + 1, (char, quoted) :: rest =>
      if quoted then .one (.exactly char) :: patternTokens fuel rest
      else
        match char with
        | '*' => .anything :: patternTokens fuel rest
        | '?' => .one .any :: patternTokens fuel rest
        | '[' =>
            match Glob.bracket? (rest.map Prod.fst) with
            | some (set, after) =>
                .one set :: patternTokens fuel (rest.drop (rest.length - after.length))
            | none => .one (.exactly '[') :: patternTokens fuel rest
        | char => .one (.exactly char) :: patternTokens fuel rest

/-- What a word contains without looking for gaps. -/
def joined (fragments : List Fragment) : List (Char × Bool) :=
  fragments.filterMap fun
    | .char char quoted => some (char, quoted)
    | .gap char => some (char, false)
    | .present => none

/-- The pattern that a word writes. -/
def patternOf (fragments : List Fragment) : Glob.Pattern :=
  let chars := joined fragments
  ⟨patternTokens (chars.length + 1) chars⟩

/-- A text without the shortest or longest beginning that a pattern matches. -/
def withoutStart (longest : Bool) (pattern : Glob.Pattern) (text : String) : String :=
  let lengths := List.range (text.length + 1)
  let lengths := if longest then lengths.reverse else lengths
  match lengths.find? fun length =>
    pattern.accepts (String.ofList (text.toList.take length)) with
  | some length => String.ofList (text.toList.drop length)
  | none => text

/-- A text without the shortest or longest end that a pattern matches. -/
def withoutEnd (longest : Bool) (pattern : Glob.Pattern) (text : String) : String :=
  let lengths := List.range (text.length + 1)
  let lengths := if longest then lengths else lengths.reverse
  match lengths.find? fun length =>
    pattern.accepts (String.ofList (text.toList.drop length)) with
  | some length => String.ofList (text.toList.take length)
  | none => text

end Concordance.Shell
