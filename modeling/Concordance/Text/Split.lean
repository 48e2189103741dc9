/-!
# Splitting a text at a separator

`splitChars` cuts a text at every occurrence of one character and keeps the
empty pieces; `joinChars` is its inverse.  A text without the separator is
one piece.
-/

namespace Concordance.Text

/-- The pieces of a text between the occurrences of a separator, empty ones included. -/
def splitChars (separator : Char) : List Char → List (List Char)
  | [] => [[]]
  | char :: rest =>
      if char = separator then [] :: splitChars separator rest
      else
        match splitChars separator rest with
        | [] => [[char]]
        | piece :: pieces => (char :: piece) :: pieces

/-- The pieces of a text, as texts. -/
def split (separator : Char) (text : String) : List String :=
  (splitChars separator text.toList).map String.ofList

/-- The pieces with the separator between neighbours. -/
def joinChars (separator : Char) : List (List Char) → List Char
  | [] => []
  | [last] => last
  | first :: second :: rest =>
      first ++ separator :: joinChars separator (second :: rest)

theorem splitChars_ne_nil (separator : Char) (text : List Char) :
    splitChars separator text ≠ [] := by
  cases text with
  | nil => simp [splitChars]
  | cons char rest =>
    unfold splitChars
    split
    · simp
    · split <;> simp

theorem joinChars_splitChars (separator : Char) (text : List Char) :
    joinChars separator (splitChars separator text) = text := by
  induction text with
  | nil => rfl
  | cons char rest inductionHypothesis =>
    rcases pieces : splitChars separator rest with _ | ⟨piece, more⟩
    · exact absurd pieces (splitChars_ne_nil separator rest)
    · rw [pieces] at inductionHypothesis
      by_cases same : char = separator
      · simp [splitChars, same, pieces, joinChars, inductionHypothesis]
      · cases more with
        | nil => simp_all [splitChars, joinChars]
        | cons second rest =>
          simp_all [splitChars, joinChars, List.cons_append]

end Concordance.Text
