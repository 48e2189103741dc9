import Concordance.Proofs.Path.Ancestors

/-!
# Paths that a text writes

A path is written by some text exactly if none of its pieces has a slash and
no empty piece stands where the text would begin otherwise: in front of a
relative path, or alone behind the root (`written_iff_legible`).  The text of
such a path writes that path again (`ofText_text`), and paths joined to one
from the root are written too (`Written.join`).
-/

namespace Concordance

namespace Text

/-! ### Splitting what was joined -/

theorem splitChars_of_not_mem {separator : Char} {text : List Char} (free : separator ∉ text) :
    splitChars separator text = [text] := by
  induction text with
  | nil => rfl
  | cons char rest induction =>
      rcases not_or.mp (mt List.mem_cons.mpr free) with ⟨other, freeRest⟩
      rw [splitChars, if_neg (Ne.symm other), induction freeRest]

theorem splitChars_append_cons
    {separator : Char}
    {piece : List Char}
    (free : separator ∉ piece)
    (rest : List Char) :
    splitChars separator (piece ++ separator :: rest) = piece :: splitChars separator rest := by
  induction piece with
  | nil => rw [List.nil_append, splitChars, if_pos rfl]
  | cons char piece induction =>
      rcases not_or.mp (mt List.mem_cons.mpr free) with ⟨other, freePiece⟩
      rw [List.cons_append, splitChars, if_neg (Ne.symm other), induction freePiece]

theorem not_mem_of_mem_splitChars
    {separator : Char}
    {text piece : List Char}
    (inPieces : piece ∈ splitChars separator text) :
    separator ∉ piece := by
  induction text generalizing piece with
  | nil =>
      rw [List.mem_singleton.mp inPieces]
      exact List.not_mem_nil
  | cons char rest induction =>
      rw [splitChars] at inPieces
      split at inPieces
      · rcases List.mem_cons.mp inPieces with rfl | inRest
        · exact List.not_mem_nil
        · exact induction inRest
      · rename_i other
        split at inPieces
        · rw [List.mem_singleton.mp inPieces]
          simpa using Ne.symm other
        · rename_i first pieces isSplit
          rw [isSplit] at induction
          rcases List.mem_cons.mp inPieces with rfl | inRest
          · rw [List.mem_cons, not_or]
            exact ⟨Ne.symm other, induction List.mem_cons_self⟩
          · exact induction (List.mem_cons_of_mem _ inRest)

theorem mem_of_mem_splitChars
    {separator char : Char}
    {text piece : List Char}
    (inPieces : piece ∈ splitChars separator text)
    (inPiece : char ∈ piece) :
    char ∈ text := by
  induction text generalizing piece with
  | nil =>
      rw [List.mem_singleton.mp inPieces] at inPiece
      exact inPiece
  | cons first rest induction =>
      rw [splitChars] at inPieces
      split at inPieces
      · rcases List.mem_cons.mp inPieces with rfl | inRest
        · exact (List.not_mem_nil inPiece).elim
        · exact List.mem_cons_of_mem _ (induction inRest inPiece)
      · split at inPieces
        · rw [List.mem_singleton.mp inPieces] at inPiece
          rw [List.mem_singleton.mp inPiece]
          exact List.mem_cons_self
        · rename_i head pieces isSplit
          rw [isSplit] at induction
          rcases List.mem_cons.mp inPieces with rfl | inRest
          · rcases List.mem_cons.mp inPiece with rfl | inHead
            · exact List.mem_cons_self
            · exact List.mem_cons_of_mem _ (induction List.mem_cons_self inHead)
          · exact List.mem_cons_of_mem _ (induction (List.mem_cons_of_mem _ inRest) inPiece)

theorem mem_joinChars
    {separator char : Char}
    {pieces : List (List Char)}
    (isMember : char ∈ joinChars separator pieces) :
    char = separator ∨ ∃ piece ∈ pieces, char ∈ piece := by
  induction pieces with
  | nil => exact (List.not_mem_nil isMember).elim
  | cons first pieces induction =>
      cases pieces with
      | nil => exact .inr ⟨first, List.mem_cons_self, isMember⟩
      | cons second rest =>
          rw [joinChars, List.mem_append, List.mem_cons] at isMember
          rcases isMember with inFirst | isSeparator | inRest
          · exact .inr ⟨first, List.mem_cons_self, inFirst⟩
          · exact .inl isSeparator
          · refine (induction inRest).imp_right ?_
            rintro ⟨piece, inPieces, inPiece⟩
            exact ⟨piece, List.mem_cons_of_mem _ inPieces, inPiece⟩

/-- Splitting undoes joining, if no piece has the separator. -/
theorem splitChars_joinChars
    {separator : Char}
    {piece : List Char}
    {pieces : List (List Char)}
    (free : ∀ each ∈ piece :: pieces, separator ∉ each) :
    splitChars separator (joinChars separator (piece :: pieces)) = piece :: pieces := by
  induction pieces generalizing piece with
  | nil => exact splitChars_of_not_mem (free piece List.mem_cons_self)
  | cons second pieces induction =>
      rcases List.forall_mem_cons.mp free with ⟨first, others⟩
      rw [joinChars, splitChars_append_cons first, induction others]

theorem toList_intercalate (separator : Char) (pieces : List String) :
    ((String.singleton separator).intercalate pieces).toList =
      joinChars separator (pieces.map String.toList) := by
  induction pieces with
  | nil => simp [joinChars]
  | cons first pieces induction =>
      cases pieces with
      | nil => simp [joinChars]
      | cons second pieces =>
          rw [String.intercalate_cons_cons, String.toList_append, String.toList_append, induction,
            List.map_cons, List.map_cons, List.map_cons, joinChars]
          simp

theorem exists_joinChars_append
    {separator : Char}
    {pieces : List (List Char)}
    (something : pieces ≠ [])
    (front : List (List Char)) :
    ∃ before, joinChars separator (front ++ pieces) = before ++ joinChars separator pieces := by
  induction front with
  | nil => exact ⟨[], rfl⟩
  | cons piece front induction =>
      rcases induction with ⟨before, joined⟩
      rcases List.exists_cons_of_ne_nil (List.append_ne_nil_of_right_ne_nil front something) with
        ⟨second, rest, isRest⟩
      refine ⟨piece ++ separator :: before, ?_⟩
      rw [List.cons_append, isRest, joinChars, ← isRest, joined, List.append_assoc,
        List.cons_append]

/-- An empty piece at the end is a separator at the end. -/
theorem joinChars_concat_nil
    {separator : Char}
    {pieces : List (List Char)}
    (something : pieces ≠ []) :
    joinChars separator (pieces ++ [[]]) = joinChars separator pieces ++ [separator] := by
  induction pieces with
  | nil => exact (something rfl).elim
  | cons first pieces induction =>
      cases pieces with
      | nil => rfl
      | cons second rest =>
          rw [List.cons_append, List.cons_append, joinChars, ← List.cons_append,
            induction (List.cons_ne_nil _ _), joinChars, List.append_assoc, List.cons_append]

end Text

namespace Path

open Text (splitChars joinChars)

/-! ### What a text writes -/

theorem ofText_of_slash
    {text : String}
    {rest : List Char}
    (isText : text.toList = '/' :: rest)
    (notEmpty : rest ≠ []) :
    ofText text = ⟨true, (splitChars '/' rest).map String.ofList⟩ := by
  rw [ofText, isText]
  cases rest with
  | nil => exact (notEmpty rfl).elim
  | cons first rest => rfl

theorem ofText_of_ne_slash
    {text : String}
    {first : Char}
    {rest : List Char}
    (isText : text.toList = first :: rest)
    (other : first ≠ '/') :
    ofText text = ⟨false, (splitChars '/' (first :: rest)).map String.ofList⟩ := by
  rw [ofText, isText]
  split
  · rename_i isNil
    cases isNil
  · rename_i isRoot
    exact (other (List.cons.inj isRoot).1).elim
  · rename_i isSlash
    exact (other (List.cons.inj isSlash).1).elim
  · rfl

/-- A text without a slash writes one piece. -/
theorem ofText_of_slashFree
    {text : String}
    (notEmpty : text ≠ "")
    (slashFree : '/' ∉ text.toList) :
    ofText text = ⟨false, [text]⟩ := by
  cases isText : text.toList with
  | nil => exact (notEmpty (String.toList_eq_nil_iff.mp isText)).elim
  | cons first rest =>
      rw [isText] at slashFree
      have other : first ≠ '/' := fun isSlash => slashFree (isSlash ▸ List.mem_cons_self)
      rw [ofText_of_ne_slash isText other, Text.splitChars_of_not_mem slashFree, ← isText,
        List.map_singleton, String.ofList_toList]

/-! ### The text of a path -/

theorem toList_text (path : Path) :
    path.text.toList =
      (if path.rooted then ['/'] else []) ++ joinChars '/' (path.pieces.map String.toList) := by
  rw [text, String.toList_append, ← Text.toList_intercalate]
  split <;> rfl

theorem map_toList_map_ofList (pieces : List (List Char)) :
    (pieces.map String.ofList).map String.toList = pieces := by
  rw [List.map_map]
  simp [Function.comp_def]

/-- The path that a text writes has that text. -/
theorem text_ofText (text : String) : (ofText text).text = text := by
  refine String.toList_injective ?_
  rw [toList_text]
  cases isText : text.toList with
  | nil =>
      rw [ofText, isText]
      rfl
  | cons first rest =>
      by_cases isSlash : first = '/'
      · subst isSlash
        by_cases isEmpty : rest = []
        · rw [ofText, isText, isEmpty]
          rfl
        · rw [ofText_of_slash isText isEmpty, map_toList_map_ofList, Text.joinChars_splitChars]
          rfl
      · rw [ofText_of_ne_slash isText isSlash, map_toList_map_ofList, Text.joinChars_splitChars]
        rfl

theorem toList_of_relative {text : String} (relative : (ofText text).rooted = false) :
    joinChars '/' ((ofText text).pieces.map String.toList) = text.toList := by
  have isText := toList_text (ofText text)
  rw [text_ofText, relative] at isText
  exact isText.symm

theorem pieces_ne_nil_of_relative
    {text : String}
    (notEmpty : text ≠ "")
    (relative : (ofText text).rooted = false) :
    (ofText text).pieces ≠ [] := by
  intro isNil
  have isText := toList_of_relative relative
  rw [isNil] at isText
  exact notEmpty (String.toList_eq_nil_iff.mp isText.symm)

/-! ### Paths that are written -/

/-- Whether some text writes a path. -/
def Written (path : Path) : Prop :=
  ∃ text, ofText text = path

/-- Whether the pieces of a path can be told from its text. -/
structure Legible (path : Path) : Prop where
  slashFree : ∀ piece ∈ path.pieces, '/' ∉ piece.toList
  rooted : path.rooted = true → path.pieces ≠ [""]
  relative : path.rooted = false → path.pieces.head? ≠ some ""

theorem slashFree_splitChars (text : List Char) :
    ∀ piece ∈ (splitChars '/' text).map String.ofList, '/' ∉ piece.toList := by
  intro piece inPieces
  rcases List.mem_map.mp inPieces with ⟨chars, inSplit, rfl⟩
  rw [String.toList_ofList]
  exact Text.not_mem_of_mem_splitChars inSplit

theorem legible_ofText (text : String) : (ofText text).Legible := by
  cases isText : text.toList with
  | nil =>
      rw [ofText, isText]
      exact ⟨nofun, nofun, nofun⟩
  | cons first rest =>
      by_cases isSlash : first = '/'
      · subst isSlash
        by_cases isEmpty : rest = []
        · subst isEmpty
          rw [ofText, isText]
          exact ⟨nofun, nofun, nofun⟩
        · rw [ofText_of_slash isText isEmpty]
          refine ⟨slashFree_splitChars rest, fun _ single => ?_,
            fun isFalse => (Bool.false_ne_true isFalse.symm).elim⟩
          have joined := Text.joinChars_splitChars '/' rest
          rcases List.map_eq_singleton_iff.mp single with ⟨piece, isSplit, isPiece⟩
          rw [isSplit, joinChars, String.ofList_eq_empty_iff.mp isPiece] at joined
          exact isEmpty joined.symm
      · rw [ofText_of_ne_slash isText isSlash]
        refine ⟨slashFree_splitChars _, fun isTrue => (Bool.false_ne_true isTrue).elim,
          fun _ isHead => ?_⟩
        rw [splitChars, if_neg isSlash] at isHead
        split at isHead <;> simp at isHead

theorem map_ofList_splitChars_joinChars
    {piece : String}
    {pieces : List String}
    (free : ∀ each ∈ piece :: pieces, '/' ∉ each.toList) :
    (splitChars '/' (joinChars '/' ((piece :: pieces).map String.toList))).map String.ofList =
      piece :: pieces := by
  rw [List.map_cons, Text.splitChars_joinChars, ← List.map_cons, List.map_map]
  · simp [Function.comp_def]
  · intro each inPieces
    rw [← List.map_cons] at inPieces
    rcases List.mem_map.mp inPieces with ⟨given, inGiven, rfl⟩
    exact free given inGiven

theorem joinChars_eq_nil
    {piece : List Char}
    {pieces : List (List Char)}
    (isNil : joinChars '/' (piece :: pieces) = []) :
    piece = [] ∧ pieces = [] := by
  cases pieces with
  | nil => exact ⟨isNil, rfl⟩
  | cons second pieces => simp [joinChars] at isNil

theorem exists_joinChars_eq_cons (first : Char) (piece : List Char) (pieces : List (List Char)) :
    ∃ rest, joinChars '/' ((first :: piece) :: pieces) = first :: rest := by
  cases pieces with
  | nil => exact ⟨piece, rfl⟩
  | cons second pieces => exact ⟨_, rfl⟩

theorem Legible.ofText_text {path : Path} (legible : path.Legible) : ofText path.text = path := by
  have isText := toList_text path
  rcases path with ⟨isRooted, pieces⟩
  cases pieces with
  | nil =>
      rw [ofText, isText]
      cases isRooted <;> rfl
  | cons piece pieces =>
      have split := map_ofList_splitChars_joinChars legible.slashFree
      cases isRooted with
      | true =>
          change _ = '/' :: joinChars '/' ((piece :: pieces).map String.toList) at isText
          rw [ofText_of_slash isText, split]
          intro isNil
          rcases joinChars_eq_nil isNil with ⟨isEmpty, single⟩
          refine legible.rooted rfl ?_
          rw [String.toList_eq_nil_iff.mp isEmpty, List.map_eq_nil_iff.mp single]
      | false =>
          change _ = joinChars '/' ((piece :: pieces).map String.toList) at isText
          cases isPiece : piece.toList with
          | nil =>
              exact (legible.relative rfl
                (congrArg some (String.toList_eq_nil_iff.mp isPiece))).elim
          | cons first front =>
              rcases exists_joinChars_eq_cons first front (pieces.map String.toList) with
                ⟨rest, joined⟩
              rw [List.map_cons, isPiece, joined] at isText split
              have other : first ≠ '/' := by
                rintro rfl
                exact legible.slashFree piece List.mem_cons_self (isPiece ▸ List.mem_cons_self)
              rw [ofText_of_ne_slash isText other, split]

theorem written_iff_legible {path : Path} : path.Written ↔ path.Legible := by
  constructor
  · rintro ⟨text, rfl⟩
    exact legible_ofText text
  · intro legible
    exact ⟨path.text, legible.ofText_text⟩

/-- The text of a path that some text writes writes it too. -/
theorem Written.ofText_text {path : Path} (written : path.Written) : ofText path.text = path :=
  (written_iff_legible.mp written).ofText_text

instance (path : Path) : Decidable path.Written :=
  decidable_of_iff (ofText path.text = path) ⟨fun isText => ⟨_, isText⟩, Written.ofText_text⟩

/-! ### Joining -/

theorem openPieces_ne_nil
    {pieces : List String}
    (notNil : pieces ≠ [])
    (notEmpty : pieces ≠ [""]) :
    openPieces pieces ≠ [] := by
  rw [openPieces]
  split
  · rename_i last
    rcases List.getLast?_eq_some_iff.mp last with ⟨front, rfl⟩
    rw [List.dropLast_concat]
    rintro rfl
    exact notEmpty rfl
  · exact notNil

/-- A path seen from one that starts at the root starts there too. -/
theorem rooted_join {base : Path} (rooted : base.rooted = true) (path : Path) :
    (base.join path).rooted = true := by
  rw [join]
  split
  · assumption
  split <;> exact rooted

theorem join_of_rooted {path : Path} (rooted : path.rooted = true) (base : Path) :
    base.join path = path := by
  rw [join, if_pos rooted]

/-- Paths that are written make a path that is written, seen from one that starts at the root. -/
theorem Written.join
    {base path : Path}
    (writtenBase : base.Written)
    (rooted : base.rooted = true)
    (written : path.Written) :
    (base.join path).Written := by
  rw [written_iff_legible] at writtenBase written ⊢
  rw [Path.join]
  split
  · exact written
  rename_i relative
  have isRelative : path.rooted = false := by simpa using relative
  split
  · refine ⟨written.slashFree, fun _ single => ?_, fun isFalse => ?_⟩
    · exact written.relative isRelative (by rw [single]; rfl)
    · rw [rooted] at isFalse
      cases isFalse
  · rename_i hasPieces
    have front := openPieces_ne_nil (by simpa using hasPieces) (writtenBase.rooted rooted)
    refine ⟨?_, fun _ single => ?_, fun isFalse => ?_⟩
    · intro piece inPieces
      rcases List.mem_append.mp inPieces with inBase | inPath
      · exact writtenBase.slashFree piece (mem_of_mem_openPieces inBase)
      · split at inPath
        · rw [List.mem_singleton.mp inPath]
          decide
        · exact written.slashFree piece inPath
    · rcases List.append_eq_singleton_iff.mp single with ⟨isNil, -⟩ | ⟨-, isNil⟩
      · exact front isNil
      · split at isNil
        · cases isNil
        · rename_i some
          exact some (List.isEmpty_iff.mpr isNil)
    · rw [rooted] at isFalse
      cases isFalse

end Path

end Concordance
