import Concordance.Proofs.Path.Written

/-!
# Paths that go on

A path is anchored if it begins at the root or with a piece that moves; then no
dot at its beginning counts (`components_of_anchored`).  Pieces put behind an
anchored path add their moves to its components, whatever slashes it ends with,
and are what is left when the path is taken away again (`stripBase?_extend`).
-/

namespace Concordance.Path

/-! ### Anchored paths -/

/-- Whether a path begins at the root, or with a name or a step up. -/
def Anchored (path : Path) : Prop :=
  path.rooted = true ∨
    ∃ first rest, path.pieces = first :: rest ∧ (component? false first).isSome = true

instance (path : Path) : Decidable path.Anchored :=
  match isPieces : path.pieces with
  | [] => decidable_of_iff (path.rooted = true) (by simp [Anchored, isPieces])
  | first :: _ =>
      decidable_of_iff (path.rooted = true ∨ (component? false first).isSome = true)
        (by simp [Anchored, isPieces])

theorem component?_of_isSome
    {piece : String}
    (moving : (component? false piece).isSome = true) :
    piece ≠ "" ∧ ∀ leading, component? leading piece = component? false piece := by
  rcases component?_cases piece with ⟨-, idle⟩ | ⟨rfl, -⟩ | ⟨notEmpty, notDot, notUp, -⟩
  · rw [idle] at moving
    cases moving
  · exact ⟨by decide, fun leading => by cases leading <;> decide⟩
  · refine ⟨notEmpty, fun leading => ?_⟩
    rw [component?, component?, if_neg notEmpty, if_neg notEmpty, if_neg notDot, if_neg notDot]

theorem components_of_anchored {path : Path} (anchored : path.Anchored) :
    path.components = (if path.rooted then [.root] else []) ++ moves path.pieces := by
  rcases path with ⟨isRooted, pieces⟩
  cases isRooted with
  | true => exact components_of_rooted pieces
  | false =>
      rcases anchored with ⟨⟨⟩⟩ | ⟨first, rest, isPieces, moving⟩
      cases isPieces
      change [] ++ ((component? true first).toList ++ moves rest) = [] ++ moves (first :: rest)
      rw [(component?_of_isSome moving).2 true]
      rcases Option.isSome_iff_exists.mp moving with ⟨component, found⟩
      rw [found, moves_cons_of_some found]
      rfl

theorem components_ne_nil_of_anchored {path : Path} (anchored : path.Anchored) :
    path.components ≠ [] := by
  rw [components_of_anchored anchored]
  rcases anchored with rooted | ⟨first, rest, isPieces, moving⟩
  · rw [if_pos rooted]
    exact List.cons_ne_nil _ _
  · rcases Option.isSome_iff_exists.mp moving with ⟨component, found⟩
    rw [isPieces, moves_cons_of_some found]
    simp

/-! ### Pieces behind a path -/

/-- A path with further pieces. -/
def extend (base : Path) (pieces : List String) : Path :=
  if pieces = [] then base else ⟨base.rooted, openPieces base.pieces ++ pieces⟩

theorem extend_nil (base : Path) : base.extend [] = base :=
  if_pos rfl

theorem extend_of_ne_nil {pieces : List String} (something : pieces ≠ []) (base : Path) :
    base.extend pieces = ⟨base.rooted, openPieces base.pieces ++ pieces⟩ :=
  if_neg something

theorem rooted_extend (base : Path) (pieces : List String) :
    (base.extend pieces).rooted = base.rooted := by
  rw [extend]
  split <;> rfl

theorem moves_extend (base : Path) (pieces : List String) :
    moves (base.extend pieces).pieces = moves base.pieces ++ moves pieces := by
  rw [extend]
  split
  · rename_i isNil
    rw [isNil]
    exact (List.append_nil _).symm
  · rw [moves_append, moves_openPieces]

theorem exists_openPieces_eq_cons
    {first : String}
    (notEmpty : first ≠ "")
    (rest : List String) :
    ∃ others, openPieces (first :: rest) = first :: others := by
  rw [openPieces]
  split
  · rename_i last
    cases rest with
    | nil => exact (notEmpty (Option.some.inj last)).elim
    | cons second rest => exact ⟨_, rfl⟩
  · exact ⟨rest, rfl⟩

theorem Anchored.extend {base : Path} (anchored : base.Anchored) (pieces : List String) :
    (base.extend pieces).Anchored := by
  rcases anchored with rooted | ⟨first, rest, isPieces, moving⟩
  · exact .inl ((rooted_extend base pieces).trans rooted)
  · rw [Path.extend]
    split
    · exact .inr ⟨first, rest, isPieces, moving⟩
    · rcases exists_openPieces_eq_cons (component?_of_isSome moving).1 rest with ⟨others, isOpen⟩
      exact .inr ⟨first, others ++ pieces, by rw [isPieces, isOpen, List.cons_append], moving⟩

/-- The moves of pieces behind a path follow its components. -/
theorem components_extend {base : Path} (anchored : base.Anchored) (pieces : List String) :
    (base.extend pieces).components = base.components ++ moves pieces := by
  rw [components_of_anchored (anchored.extend pieces), components_of_anchored anchored,
    moves_extend, rooted_extend, List.append_assoc]

theorem openPieces_append
    {pieces : List String}
    (something : pieces ≠ [])
    (front : List String) :
    openPieces (front ++ pieces) = front ++ openPieces pieces := by
  rw [openPieces, openPieces, List.getLast?_append_of_ne_nil _ something]
  split
  · exact List.dropLast_append_of_ne_nil something
  · rfl

/-- Joining a piece puts it behind the others. -/
theorem joinText_piece
    {base : Path}
    {piece : String}
    (slashFree : '/' ∉ piece.toList)
    (something : piece ≠ "" ∨ base.pieces ≠ []) :
    base.joinText piece = ⟨base.rooted, openPieces base.pieces ++ [piece]⟩ := by
  rcases base with ⟨isRooted, pieces⟩
  by_cases isEmpty : piece = ""
  · subst isEmpty
    cases pieces with
    | nil => exact (something.elim (· rfl) (· rfl)).elim
    | cons first rest => rfl
  · rw [joinText, ofText_of_slashFree isEmpty slashFree]
    cases pieces <;> rfl

theorem joinText_extend
    {pieces : List String}
    {piece : String}
    (slashFree : '/' ∉ piece.toList)
    (something : piece ≠ "" ∨ pieces ≠ [])
    (base : Path) :
    (base.extend pieces).joinText piece = base.extend (openPieces pieces ++ [piece]) := by
  rw [extend_of_ne_nil (List.concat_ne_nil _ _), joinText_piece slashFree, rooted_extend]
  · by_cases isNil : pieces = []
    · rw [isNil, extend_nil]
      rfl
    · rw [extend_of_ne_nil isNil, openPieces_append isNil, List.append_assoc]
  · refine something.imp_right fun isSome => ?_
    rw [extend_of_ne_nil isSome]
    exact List.append_ne_nil_of_right_ne_nil _ isSome

/-- Pieces of a relative path that is written make a path that is written. -/
theorem Legible.extend
    {base path : Path}
    (legible : base.Legible)
    (anchored : base.Anchored)
    (behind : path.Legible)
    (relative : path.rooted = false) :
    (base.extend path.pieces).Legible := by
  rw [Path.extend]
  split
  · exact legible
  refine ⟨?_, ?_, ?_⟩
  · refine List.forall_mem_append.mpr ⟨fun piece inBase => ?_, behind.slashFree⟩
    exact legible.slashFree piece (mem_of_mem_openPieces inBase)
  · intro rooted single
    rcases List.append_eq_singleton_iff.mp single with ⟨-, single⟩ | ⟨-, isNil⟩
    · exact behind.relative relative (by rw [single]; rfl)
    · contradiction
  · intro isRelative isHead
    rcases anchored with rooted | ⟨first, rest, isPieces, moving⟩
    · cases isRelative.symm.trans rooted
    · rcases exists_openPieces_eq_cons (component?_of_isSome moving).1 rest with ⟨others, isOpen⟩
      rw [isPieces, isOpen] at isHead
      exact (component?_of_isSome moving).1 (Option.some.inj isHead)

theorem joinText_eq_extend
    {base : Path}
    {text : String}
    (something : (ofText text).pieces ≠ [])
    (relative : (ofText text).rooted = false) :
    base.joinText text = base.extend (ofText text).pieces := by
  rw [extend_of_ne_nil something, joinText, join, relative, if_neg Bool.false_ne_true]
  rcases base with ⟨isRooted, _ | ⟨first, rest⟩⟩
  · rfl
  · dsimp only
    rw [if_neg (by simp), if_neg (by simpa using something)]

/-- The text of a relative path stays at the end. -/
theorem exists_toList_text_extend
    {text : String}
    (something : (ofText text).pieces ≠ [])
    (relative : (ofText text).rooted = false)
    (base : Path) :
    ∃ before, (base.extend (ofText text).pieces).text.toList = before ++ text.toList := by
  rcases Text.exists_joinChars_append (List.map_eq_nil_iff.not.mpr something)
    ((openPieces base.pieces).map String.toList) with ⟨before, joined⟩
  rw [toList_text, extend_of_ne_nil something, List.map_append, joined, toList_of_relative relative,
    ← List.append_assoc]
  exact ⟨_, rfl⟩

/-! ### Taking the path away -/

theorem dropComponents_append (front pieces : List String) :
    dropComponents false (moves front).length (front ++ pieces) =
      dropComponents false 0 pieces := by
  induction front with
  | nil => rfl
  | cons piece front induction =>
      rw [List.cons_append]
      cases found : component? false piece with
      | none =>
          rw [moves_cons_of_none found, ← induction]
          cases (moves front).length <;>
            rw [dropComponents, if_neg (by rw [found]; exact Bool.false_ne_true)]
      | some component =>
          rw [moves_cons_of_some found, List.length_cons, dropComponents,
            if_pos (by rw [found]; rfl), induction]

theorem dropComponents_leading
    {first : String}
    (moving : (component? false first).isSome = true)
    (leading : Bool)
    (count : Nat)
    (rest : List String) :
    dropComponents leading count (first :: rest) = dropComponents false count (first :: rest) := by
  cases count <;> rw [dropComponents, dropComponents, (component?_of_isSome moving).2 leading]

/-- What is left of the pieces behind a path when the path is taken away. -/
def restOf (pieces : List String) : Path :=
  ⟨false, trimPieces false (dropComponents false 0 pieces)⟩

/-- Taking away a path with the same components leaves the pieces behind it. -/
theorem stripBase?_extend
    {base root : Path}
    (anchored : base.Anchored)
    (anchoredRoot : root.Anchored)
    (sameRooted : base.rooted = root.rooted)
    (sameMoves : moves base.pieces = moves root.pieces)
    (pieces : List String) :
    (base.extend pieces).stripBase? root = some (restOf pieces) := by
  have sameComponents : root.components = base.components := by
    rw [components_of_anchored anchoredRoot, components_of_anchored anchored, sameRooted,
      sameMoves]
  have isCount :
      root.components.length - (if root.rooted then 1 else 0) = (moves base.pieces).length := by
    rw [components_of_anchored anchoredRoot, ← sameMoves]
    cases root.rooted <;> simp
  have isRest :
      dropComponents (!base.rooted) (moves base.pieces).length (base.extend pieces).pieces =
        dropComponents false 0 pieces := by
    have plain :
        dropComponents false (moves base.pieces).length (base.extend pieces).pieces =
          dropComponents false 0 pieces := by
      rw [extend]
      split
      · rename_i isNil
        have nothingBehind := dropComponents_append base.pieces []
        rw [List.append_nil] at nothingBehind
        rw [isNil, nothingBehind]
      · rw [← moves_openPieces, dropComponents_append]
    rw [← plain]
    rcases anchored.extend pieces with rooted | ⟨first, rest, isPieces, moving⟩
    · rw [rooted_extend] at rooted
      rw [rooted]
      rfl
    · rw [isPieces, dropComponents_leading moving]
  rw [stripBase?, if_neg (by simpa using components_ne_nil_of_anchored anchoredRoot),
    if_pos, isCount, rooted_extend]
  · dsimp only
    rw [isRest, restOf]
  · rw [components_extend anchored, sameComponents, List.isPrefixOf_iff_prefix]
    exact List.prefix_append _ _

end Concordance.Path
