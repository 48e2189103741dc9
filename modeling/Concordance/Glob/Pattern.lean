import Concordance.Text.Split

/-!
# Patterns for paths

A pattern is a text in which `?` stands for any character, `*` for any
characters, a bracket for one of several characters, and `**`, alone between
two slashes, for any directories.  Every other character stands for itself,
and there is no way to quote one.

Matching a whole text against a pattern knows nothing about directories: the
slash is a character like any other, except that `**` takes whole pieces up
to a slash.
-/

namespace Concordance.Glob

/-- The characters from one to another. -/
structure Range where
  first : Char
  last : Char
  deriving DecidableEq, Repr

/-- Whether a character lies in a range. -/
def Range.has (range : Range) (char : Char) : Bool :=
  range.first ≤ char && char ≤ range.last

/-- What a pattern asks of one character. -/
inductive CharSet where
  | exactly (char : Char)
  | any
  | within (ranges : List Range)
  | outside (ranges : List Range)
  deriving DecidableEq, Repr

/-- Whether a character is in a set. -/
def CharSet.has : CharSet → Char → Bool
  | exactly wanted, char => char == wanted
  | any, _ => true
  | within ranges, char => ranges.any fun range => range.has char
  | outside ranges, char => !ranges.any fun range => range.has char

/-- A part of a pattern. -/
inductive Token where
  /-- One character. -/
  | one (set : CharSet)
  /-- Any characters. -/
  | anything
  /-- Any directories, each with the slash behind it. -/
  | anyDirectories
  deriving DecidableEq, Repr

/-- Why a text is no pattern. -/
inductive FaultReason where
  /-- More than two stars in a row. -/
  | tooManyStars
  /-- Two stars that are not alone between slashes. -/
  | sharedComponent
  /-- A bracket that is not closed. -/
  | invalidRange
  deriving DecidableEq, Repr

/-- Why a text is no pattern, and how many characters stand in front of the place. -/
structure Fault where
  position : Nat
  reason : FaultReason
  deriving DecidableEq, Repr

/-- The wording of a reason. -/
def FaultReason.message : FaultReason → String
  | .tooManyStars => "wildcards are either regular \x60*\x60 or recursive \x60**\x60"
  | .sharedComponent => "recursive wildcards must form a single path component"
  | .invalidRange => "invalid range pattern"

/-- The wording of a fault. -/
def Fault.message (fault : Fault) : String :=
  "Pattern syntax error near position " ++ Nat.repr fault.position ++ ": "
    ++ fault.reason.message

/-! ### Reading a pattern -/

/-- The ranges that stand in a bracket; a hyphen at either end stands for itself. -/
def ranges : List Char → List Range
  | first :: '-' :: last :: rest => ⟨first, last⟩ :: ranges rest
  | char :: rest => ⟨char, char⟩ :: ranges rest
  | [] => []

/-- The content of a bracket, of which the first character never closes it, and what follows it. -/
def bracketEnd? : List Char → Option (List Char × List Char)
  | [] => none
  | first :: rest =>
      match rest.dropWhile (· != ']') with
      | [] => none
      | _ :: after => some (first :: rest.takeWhile (· != ']'), after)

/--
The set that a bracket writes, and what follows it; an exclamation mark asks
for other characters.
-/
def bracket? : List Char → Option (CharSet × List Char)
  | '!' :: rest =>
      (bracketEnd? rest).map fun (content, after) =>
        (.outside (ranges content), after)
  | rest =>
      (bracketEnd? rest).map fun (content, after) =>
        (.within (ranges content), after)

theorem length_bracketEnd?
    {text content after : List Char}
    (found : bracketEnd? text = some (content, after)) :
    after.length < text.length := by
  cases text with
  | nil => simp [bracketEnd?] at found
  | cons first rest =>
    have bound := (List.dropWhile_suffix (l := rest) (· != ']')).length_le
    simp only [bracketEnd?] at found
    split at found
    · simp at found
    · rename_i closing remaining dropped
      simp only [Option.some.injEq, Prod.mk.injEq] at found
      rw [dropped] at bound
      simp only [List.length_cons] at bound ⊢
      obtain ⟨-, rfl⟩ := found
      omega

theorem length_bracket?
    {text after : List Char}
    {set : CharSet}
    (found : bracket? text = some (set, after)) :
    after.length < text.length := by
  unfold bracket? at found
  split at found
  · obtain ⟨⟨content, rest⟩, ended, equality⟩ := Option.map_eq_some_iff.1 found
    have shorter := length_bracketEnd? ended
    simp only [Prod.mk.injEq] at equality
    obtain ⟨-, rfl⟩ := equality
    simp only [List.length_cons]
    omega
  · obtain ⟨⟨content, rest⟩, ended, equality⟩ := Option.map_eq_some_iff.1 found
    have shorter := length_bracketEnd? ended
    simp only [Prod.mk.injEq] at equality
    obtain ⟨-, rfl⟩ := equality
    exact shorter

/--
Read a pattern, in front of which some number of characters stand; `fresh`
tells whether a component begins here.
-/
def readTokens (position : Nat) (fresh : Bool) :
    List Char → Except Fault (List Token)
  | [] => .ok []
  | '?' :: rest => do
      let tokens ← readTokens (position + 1) false rest
      pure (.one .any :: tokens)
  | '*' :: '*' :: '*' :: _ => .error ⟨position + 2, .tooManyStars⟩
  | '*' :: '*' :: rest =>
      if !fresh then .error ⟨position - 1, .sharedComponent⟩
      else
        match rest with
        | [] => .ok [.anyDirectories]
        | '/' :: rest => do
            let tokens ← readTokens (position + 3) true rest
            pure (.anyDirectories :: tokens)
        | _ => .error ⟨position + 2, .sharedComponent⟩
  | '*' :: rest => do
      let tokens ← readTokens (position + 1) false rest
      pure (.anything :: tokens)
  | '[' :: rest =>
      match _found : bracket? rest with
      | some (set, after) => do
          let tokens ← readTokens (position + (1 + rest.length - after.length)) false after
          pure (.one set :: tokens)
      | none => .error ⟨position, .invalidRange⟩
  | char :: rest => do
      let tokens ← readTokens (position + 1) (char == '/') rest
      pure (.one (.exactly char) :: tokens)
termination_by text => text.length
decreasing_by
  all_goals simp_wf
  · omega
  · have shorter := length_bracket? ‹_›
    omega

/-- A pattern. -/
structure Pattern where
  tokens : List Token
  deriving DecidableEq, Repr

namespace Pattern

/-- The pattern that a text writes. -/
def ofText (text : String) : Except Fault Pattern :=
  Pattern.mk <$> readTokens 0 true text.toList

/-! ### Matching -/

/-- A text and what remains of it after dropping one, two and more characters. -/
def suffixes : List Char → List (List Char)
  | [] => [[]]
  | char :: rest => (char :: rest) :: suffixes rest

/-- What follows each slash of a text. -/
def afterSlashes : List Char → List (List Char)
  | [] => []
  | char :: rest =>
      if char = '/' then rest :: afterSlashes rest else afterSlashes rest

/-- Whether tokens match a text; directories at the end match everything. -/
def matchTokens : List Token → List Char → Bool
  | [], text => text.isEmpty
  | .one _ :: _, [] => false
  | .one set :: tokens, char :: text => set.has char && matchTokens tokens text
  | .anything :: tokens, text => (suffixes text).any (matchTokens tokens)
  | .anyDirectories :: tokens, text =>
      tokens.isEmpty || (text :: afterSlashes text).any (matchTokens tokens)

/-- Whether a pattern matches a text. -/
def accepts (pattern : Pattern) (text : String) : Bool :=
  matchTokens pattern.tokens text.toList

/-- The text of tokens that stand for themselves only. -/
def literalChars? : List Token → Option (List Char)
  | [] => some []
  | .one (.exactly char) :: tokens => (literalChars? tokens).map (char :: ·)
  | _ => none

/-- The only text that a pattern without wildcards matches. -/
def literal? (pattern : Pattern) : Option String :=
  (literalChars? pattern.tokens).map String.ofList

/-- Whether a pattern stands for any directories. -/
def isRecursive (pattern : Pattern) : Bool :=
  pattern.tokens.contains .anyDirectories

/-- Whether a pattern begins with a dot. -/
def startsWithDot (pattern : Pattern) : Bool :=
  pattern.tokens.head? == some (.one (.exactly '.'))

end Pattern

end Concordance.Glob
