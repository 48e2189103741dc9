import Concordance.Text.CapitalForms

/-!
# Upper case

The upper-case form of a text, character by character, by the full Unicode
mapping.  It is the key by which the index is sorted, so that capital and
small spellings of a name stand together.
-/

namespace Concordance.Text

/-- Whether a run contains a code point. -/
def CapitalRun.covers (run : CapitalRun) (codePoint : Nat) : Bool :=
  run.first ≤ codePoint && codePoint ≤ run.last
    && (codePoint - run.first) % run.step == 0

/-- The capital form of one character, which is the character itself if it has no other. -/
def capitalForm (char : Char) : List Char :=
  match capitalRuns.find? (·.covers char.toNat) with
  | some run => [Char.ofNat (char.toNat + run.distance).toNat]
  | none =>
      match capitalExpansions.lookup char.toNat with
      | some codePoints => codePoints.map Char.ofNat
      | none => [char]

/-- The upper-case form of a text. -/
def uppercase (text : String) : String :=
  String.ofList (text.toList.flatMap capitalForm)

end Concordance.Text
