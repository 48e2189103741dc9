import Concordance.Proofs.Markup.Escaping
import Mathlib.Data.List.Chain

/-!
# Showing a text in one pass

Text enters a page through four replacements and a search for camel-case
boundaries.  All this is one pass over the text (`onePass`): each character is
shown in its own way, and between two neighbours stands a break mark if the
left one is a small letter and the right one a capital.  The pass can be cut
between any two characters (`onePass_append`).

Break marks leave no boundary (`unbroken_onePass`), so a second search finds
none.  An entity has no boundary in it, and none at its ends; therefore the
boundaries of an escaped text are those of the text itself
(`onePass_escapeChars`).
-/

namespace Concordance.Markup

/-! ### The pass -/

/-- What stands between two neighbours: a break mark where `a` to `z` meets `A` to `Z`. -/
def gap (left right : Char) : List Char :=
  if ('a' ≤ left ∧ left ≤ 'z') ∧ 'A' ≤ right ∧ right ≤ 'Z' then "<wbr/>".toList else []

theorem gap_eq (left right : Char) :
    gap left right = if isSmallLetter left && isCapitalLetter right then breakMark else [] := by
  simp only [gap, isSmallLetter, isCapitalLetter, Bool.and_eq_true, decide_eq_true_eq, breakMark]

theorem gap_of_not_small
    {left : Char}
    (notSmall : isSmallLetter left = false)
    (right : Char) :
    gap left right = [] := by
  rw [gap_eq, notSmall, Bool.false_and, if_neg Bool.false_ne_true]

theorem gap_of_not_capital
    {right : Char}
    (notCapital : isCapitalLetter right = false)
    (left : Char) :
    gap left right = [] := by
  rw [gap_eq, notCapital, Bool.and_false, if_neg Bool.false_ne_true]

theorem isSmallLetter_of_isCapitalLetter
    {char : Char}
    (capital : isCapitalLetter char = true) :
    isSmallLetter char = false := by
  simp only [isCapitalLetter, isSmallLetter, Bool.and_eq_true, Bool.and_eq_false_iff,
    decide_eq_true_eq, decide_eq_false_iff_not] at capital ⊢
  exact .inl fun small => absurd (Char.le_trans small capital.2) (by decide)

/-- Show each character of a text in some way, with the gaps between neighbours. -/
def onePass (view : Char → List Char) : List Char → List Char
  | [] => []
  | [last] => view last
  | left :: right :: rest => view left ++ gap left right ++ onePass view (right :: rest)

/-- The pass can be cut anywhere: what stands at the cut is a matter of its two neighbours. -/
theorem onePass_append
    (view : Char → List Char)
    (front : List Char)
    (left right : Char)
    (back : List Char) :
    onePass view (front ++ left :: right :: back) =
      onePass view (front ++ [left]) ++ gap left right ++ onePass view (right :: back) := by
  induction front with
  | nil => rfl
  | cons first front induction =>
      cases front with
      | nil =>
          rw [List.singleton_append, List.singleton_append, onePass, onePass, onePass, onePass]
          simp only [List.append_assoc]
      | cons second front =>
          rw [List.cons_append, List.cons_append] at induction
          rw [List.cons_append, List.cons_append, List.cons_append, List.cons_append, onePass,
            onePass, induction]
          simp only [List.append_assoc]

/-! ### Breaking words -/

/-- A character as it is. -/
def bare (char : Char) : List Char :=
  [char]

/-- The first character of a text stays in front. -/
theorem exists_onePass_bare (first : Char) (rest : List Char) :
    ∃ shown, onePass bare (first :: rest) = first :: shown := by
  cases rest with
  | nil => exact ⟨[], rfl⟩
  | cons second rest => exact ⟨_, rfl⟩

/-- No boundary follows a character that is not small. -/
theorem onePass_bare_cons_of_not_small
    {first : Char}
    (notSmall : isSmallLetter first = false)
    (rest : List Char) :
    onePass bare (first :: rest) = first :: onePass bare rest := by
  cases rest with
  | nil => rfl
  | cons second rest =>
      rw [onePass, gap_of_not_small notSmall, List.append_nil]
      rfl

/-- The search goes on behind each pair that it finds, and misses nothing. -/
theorem wordBreakChars_eq (text : List Char) : wordBreakChars text = onePass bare text := by
  fun_induction wordBreakChars text with
  | case1 => rfl
  | case2 last => rfl
  | case3 first second rest boundary induction =>
      -- The capital letter of a pair is not the small one of another.
      have capital : isCapitalLetter second = true := (Bool.and_eq_true_iff.mp boundary).2
      rw [onePass, gap_eq, if_pos boundary,
        onePass_bare_cons_of_not_small (isSmallLetter_of_isCapitalLetter capital), induction]
      rfl
  | case4 first second rest inside induction =>
      rw [onePass, gap_eq, if_neg inside, induction]
      rfl

/-- Whether a text has no camel-case boundary. -/
def Unbroken (text : List Char) : Prop :=
  text.IsChain fun left right => gap left right = []

instance (text : List Char) : Decidable (Unbroken text) :=
  inferInstanceAs (Decidable (text.IsChain fun left right => gap left right = []))

/-- A text without a boundary stays as it is. -/
theorem Unbroken.onePass_eq {text : List Char} (unbroken : Unbroken text) :
    onePass bare text = text := by
  fun_induction onePass bare text with
  | case1 => rfl
  | case2 last => rfl
  | case3 left right rest induction =>
      rcases List.isChain_cons_cons.mp unbroken with ⟨inside, others⟩
      rw [inside, induction others]
      rfl

theorem unbroken_onePass (text : List Char) : Unbroken (onePass bare text) := by
  fun_induction onePass bare text with
  | case1 => exact .nil
  | case2 last => exact .singleton last
  | case3 left right rest induction =>
      rcases exists_onePass_bare right rest with ⟨shown, isShown⟩
      rw [isShown] at induction ⊢
      by_cases boundary : (isSmallLetter left && isCapitalLetter right) = true
      · -- The mark begins with no capital letter, ends with no small one and has no capital in it.
        have inMark : Unbroken ("<wbr/".toList ++ ['>']) := by decide +kernel
        have whole : bare left ++ gap left right ++ right :: shown =
            left :: '<' :: ("wbr/".toList ++ '>' :: right :: shown) := by
          rw [gap_eq, if_pos boundary]
          rfl
        rw [whole]
        refine List.isChain_cons_cons.mpr ⟨gap_of_not_capital (by decide) left, ?_⟩
        exact List.isChain_cons_append_cons_cons.mpr
          ⟨inMark, gap_of_not_small (by decide) right, induction⟩
      · have inside : gap left right = [] := (gap_eq left right).trans (if_neg boundary)
        rw [inside]
        exact List.isChain_cons_cons.mpr ⟨inside, induction⟩

/-- Deleting the break marks that were put in gives the text back. -/
theorem filter_breakPieces (text : List Char) :
    (breakPieces text).filter (· ≠ .tag breakTag) = text.map .char := by
  fun_induction breakPieces text with
  | case1 => rfl
  | case2 last => rfl
  | case3 first second rest boundary induction =>
      exact congrArg (.char first :: .char second :: ·) induction
  | case4 first second rest inside induction => exact congrArg (.char first :: ·) induction

/-! ### Breaking escaped words -/

/-- A character is shown as itself, or by an entity; then it is no letter. -/
theorem escapeChar_cases (char : Char) :
    escapeChar char = [char] ∨
      isSmallLetter char = false ∧ isCapitalLetter char = false ∧
        ∃ inside, escapeChar char = '&' :: inside ++ [';'] := by
  rw [escapeChar.eq_def]
  split
  · exact .inr ⟨by decide, by decide, "amp".toList, by decide⟩
  · exact .inr ⟨by decide, by decide, "lt".toList, by decide⟩
  · exact .inr ⟨by decide, by decide, "gt".toList, by decide⟩
  · exact .inr ⟨by decide, by decide, "quot".toList, by decide⟩
  · exact .inl rfl

/-- What is shown for a character has no boundary in it. -/
theorem unbroken_escapeChar (char : Char) : Unbroken (escapeChar char) := by
  rw [escapeChar.eq_def]
  split
  · decide +kernel
  · decide +kernel
  · decide +kernel
  · decide +kernel
  · exact .singleton _

/-- What is shown for a character ends at a boundary exactly if the character does. -/
theorem exists_escapeChar_eq_concat (char : Char) :
    ∃ front last, escapeChar char = front ++ [last] ∧ ∀ right, gap last right = gap char right := by
  rcases escapeChar_cases char with itself | ⟨notSmall, -, inside, isEntity⟩
  · exact ⟨[], char, itself, fun _ => rfl⟩
  · refine ⟨_, ';', isEntity, fun right => ?_⟩
    rw [gap_of_not_small (by decide), gap_of_not_small notSmall]

/-- What is shown for a character begins at a boundary exactly if the character does. -/
theorem exists_escapeChar_eq_cons (char : Char) :
    ∃ first back, escapeChar char = first :: back ∧ ∀ left, gap left first = gap left char := by
  rcases escapeChar_cases char with itself | ⟨-, notCapital, inside, isEntity⟩
  · exact ⟨char, [], itself, fun _ => rfl⟩
  · refine ⟨'&', _, isEntity, fun left => ?_⟩
    rw [gap_of_not_capital (by decide), gap_of_not_capital notCapital]

/-- The boundaries of an escaped text are those of the text. -/
theorem onePass_escapeChars (text : List Char) :
    onePass bare (escapeChars text) = onePass escapeChar text := by
  rw [escapeChars_eq]
  fun_induction onePass escapeChar text with
  | case1 => rfl
  | case2 last =>
      rw [List.flatMap_singleton]
      exact (unbroken_escapeChar last).onePass_eq
  | case3 left right rest induction =>
      rcases exists_escapeChar_eq_concat left with ⟨front, last, isLeft, sameAfter⟩
      rcases exists_escapeChar_eq_cons right with ⟨first, back, isRight, sameBefore⟩
      rw [List.flatMap_cons, isRight, List.cons_append] at induction
      rw [List.flatMap_cons, List.flatMap_cons, isRight, isLeft, List.append_assoc,
        List.singleton_append, List.cons_append, onePass_append, induction, ← isLeft,
        (unbroken_escapeChar left).onePass_eq, sameBefore, sameAfter]

/--
Escaping a text is a matter of its single characters and can be undone.  The
search for boundaries puts break marks exactly into the gaps between a small
and a capital letter; they can be deleted again, and a second search puts in
no more.  In an escaped text the marks stand exactly in the gaps of the text
itself, none of which is beside a reserved character.
-/
theorem escape_wordBreak_onePass (text : String) :
    ((escape text).toList = text.toList.flatMap escapeChar ∧
      ∀ other, escape other = escape text ↔ other = text) ∧
    ((wordBreak text).toList = onePass bare text.toList ∧
      wordBreak (wordBreak text) = wordBreak text ∧
      print (breakPieces text.toList) = (wordBreak text).toList ∧
      (breakPieces text.toList).filter (· ≠ .tag breakTag) = text.toList.map .char) ∧
    ((wordBreak (escape text)).toList = onePass escapeChar text.toList ∧
      ∀ char, escapeChar char = [char] ∨
        ∀ other, gap char other = [] ∧ gap other char = []) := by
  have broken (text : String) : (wordBreak text).toList = onePass bare text.toList := by
    rw [wordBreak, String.toList_ofList, wordBreakChars_eq]
  have escaped : (escape text).toList = escapeChars text.toList := String.toList_ofList
  refine ⟨⟨?_, fun other => ?_⟩, ⟨broken text, ?_, ?_, filter_breakPieces _⟩, ?_, fun char => ?_⟩
  · rw [escaped, escapeChars_eq]
  · exact (Function.LeftInverse.injective unescape_escape).eq_iff
  · apply String.toList_injective
    rw [broken, broken]
    exact (unbroken_onePass text.toList).onePass_eq
  · rw [print_breakPieces, wordBreak, String.toList_ofList]
  · rw [broken, escaped, onePass_escapeChars]
  · rcases escapeChar_cases char with itself | ⟨notSmall, notCapital, -⟩
    · exact .inl itself
    · exact .inr fun other => ⟨gap_of_not_small notSmall other, gap_of_not_capital notCapital other⟩

/-- A text that looks escaped is escaped again, and broken where it has a boundary of its own. -/
example : wordBreak (escape "aB&amp;C") = "a<wbr/>B&amp;amp;C" := by
  decide +kernel

end Concordance.Markup
