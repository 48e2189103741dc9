import Concordance.Path
import Mathlib.Data.List.Infix

/-!
# What the ancestors of a path mean

The pieces of a path that starts at the root mean moves: to a name below, or
up.  Empty pieces and dots mean nothing.  The parent of a path lacks its last
move (`moves_parentPieces?`), which gives an induction from a path to its
ancestors, and making a path absolute puts the moves of the current directory
in front of its own (`moves_absolute?`).
-/

namespace Concordance.Path

/-! ### Moves -/

/-- The components that pieces contribute behind the root. -/
def moves (pieces : List String) : List Component :=
  pieces.filterMap (component? false)

theorem moves_append (first second : List String) :
    moves (first ++ second) = moves first ++ moves second :=
  List.filterMap_append

theorem moves_cons_of_none
    {piece : String}
    (idle : component? false piece = none)
    (pieces : List String) :
    moves (piece :: pieces) = moves pieces := by
  rw [moves, List.filterMap_cons, idle]
  rfl

theorem moves_cons_of_some
    {piece : String}
    {component : Component}
    (moving : component? false piece = some component)
    (pieces : List String) :
    moves (piece :: pieces) = component :: moves pieces := by
  rw [moves, List.filterMap_cons, moving]
  rfl

theorem components_of_rooted (pieces : List String) :
    components ⟨true, pieces⟩ = .root :: moves pieces := by
  cases pieces with
  | nil => rfl
  | cons piece pieces =>
      rw [components, if_pos rfl, Bool.not_true, piecesComponents, moves,
        List.filterMap_cons]
      cases component? false piece <;> rfl

/-- Behind the root a piece contributes nothing, a step up, or a name. -/
theorem component?_cases (piece : String) :
    ((piece = "" ∨ piece = ".") ∧ component? false piece = none) ∨
      (piece = ".." ∧ component? false piece = some .parent) ∨
      (piece ≠ "" ∧ piece ≠ "." ∧ piece ≠ ".." ∧
        component? false piece = some (.name piece)) := by
  unfold component?
  by_cases isEmpty : piece = ""
  · simp [isEmpty]
  by_cases isDot : piece = "."
  · simp [isDot]
  by_cases isUp : piece = ".."
  · simp [isUp]
  · simp [isEmpty, isDot, isUp]

theorem mem_moves {component : Component} {pieces : List String} :
    component ∈ moves pieces → component = .parent ∨ ∃ name, component = .name name := by
  intro inMoves
  rcases List.mem_filterMap.mp inMoves with ⟨piece, -, found⟩
  rcases component?_cases piece with ⟨-, idle⟩ | ⟨-, up⟩ | ⟨-, -, -, down⟩
  · rw [idle] at found
    cases found
  · exact .inl (Option.some.inj (found.symm.trans up))
  · exact .inr ⟨piece, Option.some.inj (found.symm.trans down)⟩

/-! ### Parents -/

theorem moves_trimPieces (pieces : List String) :
    moves (trimPieces false pieces) = moves pieces := by
  induction pieces with
  | nil => rfl
  | cons piece pieces induction =>
      rw [trimPieces]
      cases found : component? false piece with
      | none =>
          rw [moves_cons_of_none found, ← induction]
          split
          · rename_i trimmed
            rw [trimmed]
            rfl
          · exact moves_cons_of_none found _
      | some component =>
          rw [moves_cons_of_some found, ← induction]
          split
          · rename_i trimmed
            rw [trimmed]
            exact moves_cons_of_some found []
          · exact moves_cons_of_some found _

theorem piecesComponents_trimPieces (leading : Bool) (pieces : List String) :
    piecesComponents leading (trimPieces leading pieces) = piecesComponents leading pieces := by
  cases pieces with
  | nil => rfl
  | cons piece pieces =>
      have others : (trimPieces false pieces).filterMap (component? false) =
          pieces.filterMap (component? false) :=
        moves_trimPieces pieces
      rw [trimPieces, piecesComponents, ← others]
      split
      · rename_i trimmed
        rw [trimmed]
        cases found : component? leading piece with
        | none => rfl
        | some component =>
            change (component? leading piece).toList ++ [] = _
            rw [found]
            rfl
      · rfl

/-- Trimmed pieces are empty, or the last one contributes a component. -/
theorem trimPieces_cases (pieces : List String) :
    trimPieces false pieces = [] ∨
      ∃ kept piece component, trimPieces false pieces = kept ++ [piece] ∧
        component? false piece = some component := by
  induction pieces with
  | nil => exact .inl rfl
  | cons piece pieces induction =>
      rw [trimPieces]
      split
      · rename_i trimmed
        split
        · rename_i contributes
          rcases Option.isSome_iff_exists.mp contributes with ⟨component, found⟩
          exact .inr ⟨[], piece, component, rfl, found⟩
        · exact .inl rfl
      · rename_i trimmed
        rcases induction with empty | ⟨kept, last, component, split, found⟩
        · exact (trimmed empty).elim
        · exact .inr ⟨piece :: kept, last, component, by rw [split, List.cons_append], found⟩

theorem trimPieces_prefix (pieces : List String) :
    ∃ idle, pieces = trimPieces false pieces ++ idle ∧
      ∀ piece ∈ idle, component? false piece = none := by
  induction pieces with
  | nil => exact ⟨[], rfl, nofun⟩
  | cons piece pieces induction =>
      rcases induction with ⟨idle, cut, silent⟩
      rw [trimPieces]
      split
      · rename_i trimmed
        rw [trimmed, List.nil_append] at cut
        split
        · exact ⟨idle, congrArg (piece :: ·) cut, silent⟩
        · rename_i contributes
          refine ⟨piece :: pieces, rfl, List.forall_mem_cons.mpr ⟨?_, cut ▸ silent⟩⟩
          simpa using contributes
      · exact ⟨idle, congrArg (piece :: ·) cut, silent⟩

/-- The pieces of a parent: pieces, then one that moves, then idle ones. -/
theorem parentPieces?_eq_some
    {pieces parent : List String}
    (found : parentPieces? false pieces = some parent) :
    ∃ kept piece component idle, pieces = kept ++ piece :: idle ∧
      component? false piece = some component ∧
      (∀ silent ∈ idle, component? false silent = none) ∧
      parent = trimPieces false kept := by
  rcases trimPieces_prefix pieces with ⟨idle, cut, silent⟩
  unfold parentPieces? at found
  rcases trimPieces_cases pieces with empty | ⟨kept, piece, component, trimmed, moving⟩
  · rw [empty] at found
    cases found
  · refine ⟨kept, piece, component, idle, ?_, moving, silent, ?_⟩
    · rw [trimmed, List.append_assoc] at cut
      exact cut
    · rw [trimmed] at found
      split at found
      · cases found
      · rename_i first rest split
        rw [← split, List.dropLast_concat] at found
        exact (Option.some.inj found).symm

theorem parentPieces?_eq_none {pieces : List String} (none : parentPieces? false pieces = none) :
    moves pieces = [] := by
  unfold parentPieces? at none
  split at none
  · rename_i trimmed
    rw [← moves_trimPieces, trimmed]
    rfl
  · cases none

theorem moves_parentPieces?
    {pieces parent : List String}
    (found : parentPieces? false pieces = some parent) :
    ∃ component, moves pieces = moves parent ++ [component] := by
  rcases parentPieces?_eq_some found with
    ⟨kept, piece, component, idle, rfl, moving, silent, rfl⟩
  refine ⟨component, ?_⟩
  have nothing : moves idle = [] := List.filterMap_eq_nil_iff.mpr silent
  rw [moves_append, moves_trimPieces, moves_cons_of_some moving, nothing]

theorem trimPieces_append_of_some
    {piece : String}
    (moving : ∀ leading, (component? leading piece).isSome)
    (leading : Bool)
    (pieces : List String) :
    trimPieces leading (pieces ++ [piece]) = pieces ++ [piece] := by
  induction pieces generalizing leading with
  | nil => rw [List.nil_append, trimPieces, trimPieces, if_pos (moving leading)]
  | cons first pieces induction =>
      rw [List.cons_append, trimPieces, induction]
      split
      · rename_i isNil
        exact absurd isNil (List.concat_ne_nil _ _)
      · rfl

/-- The parent of a path that ends in a name has the components in front of it. -/
theorem exists_parent?_append_name
    {name : String}
    (isName : ∀ leading, component? leading name = some (.name name))
    (rooted : Bool)
    (pieces : List String) :
    ∃ parent, parent? ⟨rooted, pieces ++ [name]⟩ = some parent ∧
      parent.components = components ⟨rooted, pieces⟩ := by
  have moving (leading : Bool) : (component? leading name).isSome := by
    rw [isName]
    rfl
  refine ⟨⟨rooted, trimPieces (!rooted) pieces⟩, ?_, ?_⟩
  · rw [parent?, parentPieces?, trimPieces_append_of_some moving]
    split
    · rename_i isNil
      exact absurd isNil (List.concat_ne_nil _ _)
    · rename_i first rest isAll
      rw [← isAll, List.dropLast_concat]
      rfl
  · rw [components, components, piecesComponents_trimPieces]

/-! ### Ancestors -/

theorem ancestors_eq_of_none
    {pieces : List String}
    (none : parentPieces? false pieces = none) :
    ancestors ⟨true, pieces⟩ = [⟨true, pieces⟩] := by
  rw [ancestors]
  split
  · rfl
  · simp_all

theorem ancestors_eq_of_some
    {pieces parent : List String}
    (found : parentPieces? false pieces = some parent) :
    ancestors ⟨true, pieces⟩ = ⟨true, pieces⟩ :: ancestors ⟨true, parent⟩ := by
  rw [ancestors]
  split
  · simp_all
  · simp_all

/-- Induction from a path that starts at the root to its parents. -/
theorem induction_parent
    {motive : List String → Prop}
    (top : ∀ pieces, parentPieces? false pieces = none → motive pieces)
    (below : ∀ pieces parent, parentPieces? false pieces = some parent →
      motive parent → motive pieces)
    (pieces : List String) :
    motive pieces := by
  induction length : pieces.length using Nat.strongRecOn generalizing pieces with
  | ind size induction =>
      cases found : parentPieces? false pieces with
      | none => exact top pieces found
      | some parent =>
          exact below pieces parent found
            (induction parent.length (length ▸ length_parentPieces? found) parent rfl)

theorem rooted_of_mem_ancestors
    {pieces : List String}
    {ancestor : Path}
    (isAncestor : ancestor ∈ ancestors ⟨true, pieces⟩) :
    ancestor.rooted = true := by
  induction pieces using induction_parent with
  | top pieces none =>
      rw [ancestors_eq_of_none none, List.mem_singleton] at isAncestor
      rw [isAncestor]
  | below pieces parent found induction =>
      rw [ancestors_eq_of_some found, List.mem_cons] at isAncestor
      rcases isAncestor with rfl | above
      · rfl
      · exact induction above

/-! ### Absolute paths -/

theorem moves_openPieces (pieces : List String) : moves (openPieces pieces) = moves pieces := by
  rw [openPieces]
  split
  · rename_i last
    rcases List.getLast?_eq_some_iff.mp last with ⟨front, rfl⟩
    rw [List.dropLast_concat, moves_append]
    exact (List.append_nil _).symm
  · rfl

theorem mem_of_mem_openPieces {piece : String} {pieces : List String} :
    piece ∈ openPieces pieces → piece ∈ pieces := by
  rw [openPieces]
  split
  · exact List.mem_of_mem_dropLast
  · exact id

theorem moves_plainPieces (pieces : List String) : moves (plainPieces pieces) = moves pieces := by
  rw [moves, plainPieces, List.filterMap_filter]
  refine List.filterMap_congr fun piece _ => ?_
  cases component? false piece <;> rfl

/-- A slash at the end of a path changes nothing about its meaning. -/
theorem join_empty_of_rooted (pieces : List String) :
    ∃ closed, (⟨true, pieces⟩ : Path).join empty = ⟨true, closed⟩ ∧
      moves closed = moves pieces ∧ ∀ piece ∈ closed, piece = "" ∨ piece ∈ pieces := by
  cases pieces with
  | nil => exact ⟨[], rfl, rfl, nofun⟩
  | cons first rest =>
      refine ⟨openPieces (first :: rest) ++ [""], rfl, ?_, ?_⟩
      · rw [moves_append, moves_openPieces]
        exact List.append_nil _
      · intro piece inClosed
        rcases List.mem_append.mp inClosed with inOpen | isLast
        · exact .inr (mem_of_mem_openPieces inOpen)
        · exact .inl (List.mem_singleton.mp isLast)

/-- The moves of a path from the root, if it is seen from a directory. -/
def movesFrom (current : List String) (path : Path) : List Component :=
  (if path.rooted then [] else moves current) ++ moves path.pieces

/-- What `absolute?` puts in front of a slash at the end. -/
theorem exists_front
    (current : List String)
    (path : Path) :
    let plain := plainPieces path.pieces
    ∃ pieces,
      (if path.hasDoubleRoot then
          (⟨true, "" :: (if plain.isEmpty then [""] else plain)⟩ : Path)
        else if path.rooted then ⟨true, plain⟩
        else if plain.isEmpty then ⟨true, current⟩
        else (⟨true, current⟩ : Path).join ⟨false, plain⟩) = ⟨true, pieces⟩ ∧
      moves pieces = movesFrom current path ∧
      ∀ piece ∈ pieces,
        piece = "" ∨ (path.rooted = false ∧ piece ∈ current) ∨ piece ∈ path.pieces := by
  intro plain
  have samePlain : moves plain = moves path.pieces := moves_plainPieces path.pieces
  have ofPlain : ∀ piece ∈ plain, piece ∈ path.pieces := fun piece inPlain =>
    (List.mem_filter.mp inPlain).1
  split
  · rename_i double
    have rooted : path.rooted = true := (Bool.and_eq_true_iff.mp double).1
    refine ⟨_, rfl, ?_, ?_⟩
    · rw [movesFrom, if_pos rooted, List.nil_append, moves_cons_of_none (by decide),
        ← samePlain]
      split
      · rename_i nothing
        rw [List.isEmpty_iff.mp nothing]
        rfl
      · rfl
    · intro piece inPieces
      rcases List.mem_cons.mp inPieces with isEmpty | inPlain
      · exact .inl isEmpty
      · split at inPlain
        · exact .inl (List.mem_singleton.mp inPlain)
        · exact .inr (.inr (ofPlain piece inPlain))
  · split
    · rename_i rooted
      exact ⟨plain, rfl, by rw [movesFrom, if_pos rooted, List.nil_append, samePlain],
        fun piece inPlain => .inr (.inr (ofPlain piece inPlain))⟩
    · rename_i notRooted
      have relative : path.rooted = false := by simpa using notRooted
      rw [movesFrom, if_neg notRooted]
      split
      · rename_i nothing
        refine ⟨current, rfl, ?_, fun piece inCurrent => .inr (.inl ⟨relative, inCurrent⟩)⟩
        rw [← samePlain, List.isEmpty_iff.mp nothing]
        exact (List.append_nil _).symm
      · rename_i something
        cases current with
        | nil =>
            exact ⟨plain, rfl, samePlain, fun piece inPlain =>
              .inr (.inr (ofPlain piece inPlain))⟩
        | cons first rest =>
            refine ⟨openPieces (first :: rest) ++ plain, ?_, ?_, ?_⟩
            · rw [join, if_neg Bool.false_ne_true, if_neg (by simp), if_neg something]
            · rw [moves_append, moves_openPieces, samePlain]
            · intro piece inPieces
              rcases List.mem_append.mp inPieces with inOpen | inPlain
              · exact .inr (.inl ⟨relative, mem_of_mem_openPieces inOpen⟩)
              · exact .inr (.inr (ofPlain piece inPlain))

/-- An absolute path moves like the current directory and then like the path. -/
theorem moves_absolute?
    {current : List String}
    {path absolute : Path}
    (found : absolute? ⟨true, current⟩ path = some absolute) :
    ∃ pieces, absolute = ⟨true, pieces⟩ ∧
      moves pieces = movesFrom current path ∧
      ∀ piece ∈ pieces,
        piece = "" ∨ (path.rooted = false ∧ piece ∈ current) ∨ piece ∈ path.pieces := by
  rcases exists_front current path with ⟨pieces, isFront, sameMoves, known⟩
  unfold absolute? at found
  split at found
  · cases found
  · dsimp only at found
    rw [isFront] at found
    have isAbsolute := Option.some.inj found
    split at isAbsolute
    · rcases join_empty_of_rooted pieces with ⟨closed, isClosed, sameClosed, ofClosed⟩
      refine ⟨closed, by rw [← isAbsolute, isClosed], by rw [sameClosed, sameMoves], ?_⟩
      intro piece inClosed
      rcases ofClosed piece inClosed with isEmpty | inPieces
      · exact .inl isEmpty
      · exact known piece inPieces
    · exact ⟨pieces, isAbsolute.symm, sameMoves, known⟩

/-- Only the empty path cannot be made absolute. -/
theorem exists_absolute?_iff {directory path : Path} :
    (∃ absolute, absolute? directory path = some absolute) ↔ path ≠ empty := by
  unfold absolute?
  split <;> simp_all

end Concordance.Path
