import Concordance.Proofs.Markup.Pieces

/-!
# Escaped text

Escaping one reserved character after the other is escaping every character
on its own.  Escaped text has no character of which tags are made, and
undoing the four entities in one pass gives the text back.

Break marks stand between characters of the text, never instead of one: a
text with break marks is read as the characters of the text with tags `wbr/`
between some of them.
-/

namespace Concordance.Markup

/-! ### Escaping -/

/-- Escaping is a matter of the single characters. -/
theorem escapeChars_eq (text : List Char) : escapeChars text = text.flatMap escapeChar := by
  simp only [escapeChars, Text.replaceChar, List.flatMap_assoc]
  apply List.flatMap_congr
  intro char _
  symm
  rw [escapeChar.eq_def]
  split
  · decide
  · decide
  · decide
  · decide
  · rename_i notAmpersand notLess notGreater notQuote
    simp only [if_neg notAmpersand, if_neg notLess, if_neg notGreater, if_neg notQuote,
      List.flatMap_singleton]

theorem plain_escapeChars (text : List Char) : Plain (escapeChars text) := by
  intro char member
  rw [escapeChars_eq, List.mem_flatMap] at member
  rcases member with ⟨original, -, inEntity⟩
  rw [escapeChar.eq_def] at inEntity
  split at inEntity
  · exact (by decide : Plain "&amp;".toList) char inEntity
  · exact (by decide : Plain "&lt;".toList) char inEntity
  · exact (by decide : Plain "&gt;".toList) char inEntity
  · exact (by decide : Plain "&quot;".toList) char inEntity
  · rw [List.mem_singleton] at inEntity
    subst inEntity
    simp_all [isReserved]

/-- Undo the four entities, in one pass. -/
def unescapeChars : List Char → List Char
  | '&' :: 'a' :: 'm' :: 'p' :: ';' :: rest => '&' :: unescapeChars rest
  | '&' :: 'l' :: 't' :: ';' :: rest => '<' :: unescapeChars rest
  | '&' :: 'g' :: 't' :: ';' :: rest => '>' :: unescapeChars rest
  | '&' :: 'q' :: 'u' :: 'o' :: 't' :: ';' :: rest => '"' :: unescapeChars rest
  | char :: rest => char :: unescapeChars rest
  | [] => []

/-- The text that markup shows for a text with entities. -/
def unescape (text : String) : String :=
  String.ofList (unescapeChars text.toList)

theorem unescapeChars_cons
    {char : Char}
    (ordinary : char ≠ '&')
    (rest : List Char) :
    unescapeChars (char :: rest) = char :: unescapeChars rest := by
  rw [unescapeChars.eq_def]
  split <;> simp_all

theorem unescapeChars_escapeChar (char : Char) (rest : List Char) :
    unescapeChars (escapeChar char ++ rest) = char :: unescapeChars rest := by
  rw [escapeChar.eq_def]
  split
  · rfl
  · rfl
  · rfl
  · rfl
  · exact unescapeChars_cons (by assumption) rest

theorem unescapeChars_escapeChars (text : List Char) :
    unescapeChars (escapeChars text) = text := by
  rw [escapeChars_eq]
  induction text with
  | nil => rfl
  | cons char rest induction =>
      rw [List.flatMap_cons, unescapeChars_escapeChar, induction]

/-- Markup shows an escaped text as it was. -/
@[simp]
theorem unescape_escape (text : String) : unescape (escape text) = text := by
  rw [unescape, escape, String.toList_ofList, unescapeChars_escapeChars,
    String.ofList_toList]

/-! ### Break marks -/

/-- The tag that allows a line break. -/
def breakTag : Tag :=
  ⟨"wbr/", []⟩

/-- The characters of a text, and break tags where break marks are put. -/
def breakPieces : List Char → List Piece
  | [] => []
  | [last] => [.char last]
  | first :: second :: rest =>
      if isSmallLetter first && isCapitalLetter second then
        .char first :: .tag breakTag :: .char second :: breakPieces rest
      else
        .char first :: breakPieces (second :: rest)

theorem print_breakPieces (text : List Char) :
    print (breakPieces text) = wordBreakChars text := by
  fun_induction wordBreakChars text with
  | case1 => rfl
  | case2 last => rfl
  | case3 first second rest boundary induction =>
      rw [breakPieces, if_pos boundary, ← induction]
      rfl
  | case4 first second rest inside induction =>
      rw [breakPieces, if_neg inside, ← induction]
      rfl

/-- What is shown of a text: it is escaped, and break marks are put into it. -/
theorem toList_wordBreak_escape (text : String) :
    (wordBreak (escape text)).toList = print (breakPieces (escapeChars text.toList)) := by
  rw [print_breakPieces, wordBreak, escape, String.toList_ofList, String.toList_ofList]

/-- The character that a piece is, unless it is a tag. -/
def Piece.char? : Piece → Option Char
  | .char letter => some letter
  | .tag _ => none

/-- The text between the tags. -/
def textOf (pieces : List Piece) : String :=
  String.ofList (pieces.filterMap Piece.char?)

/-- Without the break tags the text is what it was. -/
theorem filterMap_char?_breakPieces (text : List Char) :
    (breakPieces text).filterMap Piece.char? = text := by
  fun_induction breakPieces text with
  | case1 => rfl
  | case2 last => rfl
  | case3 first second rest boundary induction =>
      exact congrArg (first :: second :: ·) induction
  | case4 first second rest inside induction => exact congrArg (first :: ·) induction

theorem eq_breakTag_of_mem_breakPieces
    {text : List Char}
    {tag : Tag}
    (member : .tag tag ∈ breakPieces text) :
    tag = breakTag := by
  fun_induction breakPieces text with
  | case1 => cases member
  | case2 last => simp at member
  | case3 first second rest boundary induction =>
      simp only [List.mem_cons, Piece.tag.injEq, reduceCtorEq, false_or] at member
      exact member.elim id induction
  | case4 first second rest inside induction =>
      simp only [List.mem_cons, reduceCtorEq, false_or] at member
      exact induction member

/-- Break marks leave a plain text sound markup. -/
theorem Plain.sound_breakPieces
    {text : List Char}
    (plain : Plain text)
    {piece : Piece}
    (member : piece ∈ breakPieces text) :
    piece.Sound := by
  cases piece with
  | char char =>
      apply plain
      rw [← filterMap_char?_breakPieces text]
      exact List.mem_filterMap.mpr ⟨_, member, rfl⟩
  | tag tag =>
      rw [eq_breakTag_of_mem_breakPieces member]
      exact ⟨by decide, nofun⟩

end Concordance.Markup
