import Concordance.Text.Search
import Mathlib.Data.List.Basic

/-!
# What the search for a pattern finds

A pattern `Occurs` in a text if the text can be cut around it.  A `FirstCut`
is such a cut before which no other one lies.  The search finds it if the
pattern occurs at all, and replacing the first occurrence replaces what lies
between the two parts of the cut.
-/

namespace Concordance.Text

/-! ### Lists of characters -/

theorem eq_append_of_splitFirst?
    {pattern text before after : List Char}
    (found : splitFirst? pattern text = some (before, after)) :
    text = before ++ pattern ++ after := by
  induction text generalizing before with
  | nil =>
      rw [splitFirst?] at found
      split at found
      · rename_i empty
        cases found
        rw [List.isEmpty_iff.mp empty]
        rfl
      · cases found
  | cons char rest induction =>
      rw [splitFirst?] at found
      split at found
      · rename_i tail here
        cases found
        exact (List.append_eq_of_isPrefixOf?_eq_some here).symm
      · rcases Option.map_eq_some_iff.mp found with ⟨⟨first, last⟩, below, ⟨⟩⟩
        rw [induction below]
        rfl

theorem isPrefixOf?_append (pattern rest : List Char) :
    pattern.isPrefixOf? (pattern ++ rest) = some rest :=
  List.isPrefixOf?_eq_some_iff_append_eq.mpr rfl

/-- An occurrence of the pattern is found, or one that begins earlier. -/
theorem splitFirst?_append (before pattern after : List Char) :
    ∃ first last,
      splitFirst? pattern (before ++ pattern ++ after) = some (first, last) ∧
        first.length ≤ before.length := by
  induction before with
  | nil =>
      rw [List.nil_append]
      cases whole : pattern ++ after with
      | nil =>
          rcases List.append_eq_nil_iff.mp whole with ⟨rfl, rfl⟩
          exact ⟨[], [], rfl, Nat.le_refl _⟩
      | cons char rest =>
          refine ⟨[], after, ?_, Nat.le_refl _⟩
          rw [splitFirst?, ← whole, isPrefixOf?_append]
  | cons char before induction =>
      rcases induction with ⟨first, last, found, shorter⟩
      rw [List.cons_append, List.cons_append, splitFirst?, found]
      split
      · rename_i tail _
        exact ⟨[], tail, rfl, Nat.zero_le _⟩
      · exact ⟨char :: first, last, rfl, Nat.succ_le_succ shorter⟩

/-! ### A mark in between -/

theorem append_cons_eq_append_cons_iff
    {mark : Char}
    {first second firstRest secondRest : List Char} :
    first ++ mark :: firstRest = second ++ mark :: secondRest ↔
      (first = second ∧ firstRest = secondRest) ∨
        (∃ gap, first = second ++ mark :: gap ∧ secondRest = gap ++ mark :: firstRest) ∨
        ∃ gap, second = first ++ mark :: gap ∧ firstRest = gap ++ mark :: secondRest := by
  rw [List.append_eq_append_iff]
  constructor
  · rintro (⟨gap, longer, rest⟩ | ⟨gap, longer, rest⟩)
    · cases gap with
      | nil =>
          cases rest
          exact .inl ⟨by rw [longer, List.append_nil], rfl⟩
      | cons head gap =>
          cases rest
          exact .inr (.inr ⟨gap, longer, rfl⟩)
    · cases gap with
      | nil =>
          cases rest
          exact .inl ⟨by rw [longer, List.append_nil], rfl⟩
      | cons head gap =>
          cases rest
          exact .inr (.inl ⟨gap, longer, rfl⟩)
  · rintro (⟨rfl, rfl⟩ | ⟨gap, longer, rest⟩ | ⟨gap, longer, rest⟩)
    · exact .inl ⟨[], by simp⟩
    · exact .inr ⟨mark :: gap, longer, by rw [rest, List.cons_append]⟩
    · exact .inl ⟨mark :: gap, longer, by rw [rest, List.cons_append]⟩

/-- Where a mark stands nowhere in front, it tells where the front ends. -/
theorem append_cons_inj_iff
    {mark : Char}
    {first second firstRest secondRest : List Char}
    (freeFirst : mark ∉ first)
    (freeSecond : mark ∉ second) :
    first ++ mark :: firstRest = second ++ mark :: secondRest ↔
      first = second ∧ firstRest = secondRest := by
  rw [append_cons_eq_append_cons_iff, or_iff_left]
  rintro (⟨gap, isFirst, -⟩ | ⟨gap, isSecond, -⟩)
  · exact freeFirst (by simp [isFirst])
  · exact freeSecond (by simp [isSecond])

/-! ### Texts -/

/-- Whether a pattern stands somewhere in a text. -/
def Occurs (pattern text : String) : Prop :=
  ∃ before after, text = before ++ pattern ++ after

/-- Whether a text is cut around an occurrence of a pattern that begins as early as possible. -/
structure FirstCut (pattern text before after : String) : Prop where
  whole : text = before ++ pattern ++ after
  shortest :
    ∀ other rest, text = other ++ pattern ++ rest → before.length ≤ other.length

theorem exists_splitFirst?
    {text pattern before after : String}
    (whole : text = before ++ pattern ++ after) :
    ∃ first last, splitFirst? pattern.toList text.toList = some (first, last) ∧
      first.length ≤ before.length := by
  rw [whole, String.toList_append, String.toList_append]
  rcases splitFirst?_append before.toList pattern.toList after.toList with
    ⟨first, last, found, shorter⟩
  exact ⟨first, last, found, String.length_toList ▸ shorter⟩

theorem firstCut_of_splitFirst?
    {pattern text : String}
    {before after : List Char}
    (found : splitFirst? pattern.toList text.toList = some (before, after)) :
    FirstCut pattern text (String.ofList before) (String.ofList after) where
  whole := by
    apply String.toList_injective
    rw [eq_append_of_splitFirst? found]
    simp
  shortest := by
    intro other rest whole
    rcases exists_splitFirst? whole with ⟨first, last, again, shorter⟩
    rw [found] at again
    cases again
    simpa using shorter

/-- The search decides whether a pattern occurs. -/
theorem contains_iff {text pattern : String} :
    contains text pattern = true ↔ Occurs pattern text := by
  rw [contains, Occurs, Option.isSome_iff_exists]
  constructor
  · rintro ⟨⟨before, after⟩, found⟩
    exact ⟨_, _, (firstCut_of_splitFirst? found).whole⟩
  · rintro ⟨before, after, whole⟩
    rcases exists_splitFirst? whole with ⟨first, last, found, -⟩
    exact ⟨(first, last), found⟩

theorem exists_firstCut
    {text pattern : String}
    (occurs : Occurs pattern text) :
    ∃ before after, FirstCut pattern text before after := by
  rcases occurs with ⟨before, after, whole⟩
  rcases exists_splitFirst? whole with ⟨_, _, found, -⟩
  exact ⟨_, _, firstCut_of_splitFirst? found⟩

/-- There is only one first cut. -/
theorem FirstCut.unique
    {pattern text before after otherBefore otherAfter : String}
    (cut : FirstCut pattern text before after)
    (other : FirstCut pattern text otherBefore otherAfter) :
    otherBefore = before ∧ otherAfter = after := by
  have length : otherBefore.length = before.length :=
    Nat.le_antisymm (other.shortest _ _ cut.whole) (cut.shortest _ _ other.whole)
  have whole : otherBefore.toList ++ (pattern.toList ++ otherAfter.toList) =
      before.toList ++ (pattern.toList ++ after.toList) := by
    simpa using congrArg String.toList (other.whole.symm.trans cut.whole)
  rcases List.append_inj whole (by
      rw [String.length_toList, String.length_toList, length]) with
    ⟨same, rest⟩
  exact ⟨String.toList_injective same,
    String.toList_injective (List.append_cancel_left rest)⟩

/-- Replacing the first occurrence keeps what stands before and after it. -/
theorem FirstCut.replaceFirst_eq
    {pattern text before after : String}
    (cut : FirstCut pattern text before after)
    (replacement : String) :
    replaceFirst text pattern replacement = before ++ replacement ++ after := by
  rcases exists_splitFirst? cut.whole with ⟨first, last, found, -⟩
  rcases cut.unique (firstCut_of_splitFirst? found) with ⟨rfl, rfl⟩
  rw [replaceFirst, found]

/-! ### Occurrences in longer texts -/

theorem Occurs.refl (text : String) : Occurs text text :=
  ⟨"", "", by simp⟩

theorem Occurs.append_left
    {pattern text : String}
    (occurs : Occurs pattern text)
    (front : String) :
    Occurs pattern (front ++ text) := by
  rcases occurs with ⟨before, after, rfl⟩
  exact ⟨front ++ before, after, by simp only [String.append_assoc]⟩

theorem Occurs.append_right
    {pattern text : String}
    (occurs : Occurs pattern text)
    (back : String) :
    Occurs pattern (text ++ back) := by
  rcases occurs with ⟨before, after, rfl⟩
  exact ⟨before, after ++ back, by simp only [String.append_assoc]⟩

/-- What occurs in one of several texts occurs in all of them joined. -/
theorem Occurs.intercalate
    {pattern text : String}
    (occurs : Occurs pattern text)
    {texts : List String}
    (member : text ∈ texts)
    (separator : String) :
    Occurs pattern (separator.intercalate texts) := by
  induction texts with
  | nil => cases member
  | cons first rest induction =>
      cases rest with
      | nil =>
          rw [String.intercalate_singleton, ← List.mem_singleton.mp member]
          exact occurs
      | cons second rest =>
          rw [String.intercalate_cons_cons]
          rcases List.mem_cons.mp member with rfl | inRest
          · exact (occurs.append_right _).append_right _
          · exact (induction inRest).append_left _

/-! ### Occurrences beside a character that the pattern lacks -/

theorem occurs_iff_toList {pattern text : String} :
    Occurs pattern text ↔ pattern.toList <:+: text.toList := by
  constructor
  · rintro ⟨before, after, rfl⟩
    exact ⟨before.toList, after.toList, by simp⟩
  · rintro ⟨before, after, whole⟩
    refine ⟨String.ofList before, String.ofList after, ?_⟩
    apply String.toList_injective
    rw [← whole]
    simp

theorem infix_append_cons_iff
    {pattern front back : List Char}
    {separator : Char}
    (lacks : separator ∉ pattern) :
    pattern <:+: front ++ separator :: back ↔
      pattern <:+: front ∨ pattern <:+: back := by
  have atSeparator {part : List Char}
      (inPattern : ∀ char ∈ part, char ∈ pattern)
      (prefixed : part <+: separator :: back) :
      part = [] := by
    cases part with
    | nil => rfl
    | cons char part =>
        rcases List.cons_prefix_cons.mp prefixed with ⟨same, -⟩
        rw [← same] at lacks
        exact (lacks (inPattern char List.mem_cons_self)).elim
  constructor
  · intro inWhole
    rcases List.infix_append_iff_ne_nil.mp inWhole with
      inFront | inBack | ⟨left, right, -, notNil, split, -, prefixed⟩
    · exact .inl inFront
    · rcases List.infix_cons_iff.mp inBack with prefixed | inBack
      · rw [atSeparator (fun _ member => member) prefixed]
        exact .inl (List.nil_infix)
      · exact .inr inBack
    · refine (notNil (atSeparator ?_ prefixed)).elim
      intro char member
      rw [split]
      exact List.mem_append_right _ member
  · rintro (inFront | inBack)
    · exact inFront.trans (List.prefix_append _ _).isInfix
    · exact inBack.trans ((List.suffix_cons _ _).trans (List.suffix_append _ _)).isInfix

/-- A pattern without a line feed occurs on one side of an empty line, or on the other. -/
theorem occurs_append_emptyLine_iff
    {pattern front back : String}
    (lacks : '\n' ∉ pattern.toList) :
    Occurs pattern (front ++ "\n\n" ++ back) ↔
      Occurs pattern front ∨ Occurs pattern back := by
  have whole : (front ++ "\n\n" ++ back).toList =
      front.toList ++ '\n' :: ([] ++ '\n' :: back.toList) := by
    simp
  rw [occurs_iff_toList, occurs_iff_toList, occurs_iff_toList, whole,
    infix_append_cons_iff lacks, infix_append_cons_iff lacks]
  constructor
  · rintro (inFront | inNil | inBack)
    · exact .inl inFront
    · rw [List.infix_nil.mp inNil]
      exact .inl (List.nil_infix)
    · exact .inr inBack
  · rintro (inFront | inBack)
    · exact .inl inFront
    · exact .inr (.inr inBack)

/-- Before the first cut there is no other occurrence. -/
theorem FirstCut.pattern_eq_empty
    {pattern text before after : String}
    (cut : FirstCut pattern text before after)
    (occurs : Occurs pattern before) :
    pattern = "" := by
  rcases occurs with ⟨left, right, whole⟩
  have shorter := cut.shortest left (right ++ pattern ++ after) (by
    rw [cut.whole, whole]
    simp only [String.append_assoc])
  rw [whole, String.length_append, String.length_append] at shorter
  apply String.length_eq_zero_iff.mp
  omega

end Concordance.Text
