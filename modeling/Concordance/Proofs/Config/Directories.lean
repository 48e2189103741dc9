import Concordance.Config.Layers
import Concordance.Proofs.Failure
import Concordance.Proofs.Path.Ancestors
import Mathlib.Data.List.Infix

/-!
# The directories of a search

A search for layers goes through the ancestors of its start, down from its
ceiling.  In terms of moves these are the beginnings of the moves of the start
that are at least as long as those of the ceiling, the shortest first
(`map_components_upTo`).  A ceiling that is no ancestor of the start is passed
over, and the search begins at the root.
-/

namespace Concordance.LayerSearch

open Concordance.Path (Component moves)

section Depth

variable {Move : Type} [DecidableEq Move]

/-- How many moves lead to the ceiling, if it is on the way; none if there is no such ceiling. -/
def depth (ceiling : Option (List Move)) (path : List Move) : Nat :=
  match ceiling with
  | some top => if top <+: path then top.length else 0
  | none => 0

theorem depth_le (ceiling : Option (List Move)) (path : List Move) :
    depth ceiling path ≤ path.length := by
  unfold depth
  split
  · split
    · rename_i above
      exact above.length_le
    · exact Nat.zero_le _
  · exact Nat.zero_le _

/-- A ceiling other than a path itself is on the way to it if it is on the way to its parent. -/
theorem depth_concat
    {ceiling : Option (List Move)}
    {path : List Move}
    {move : Move}
    (other : ceiling ≠ some (path ++ [move])) :
    depth ceiling (path ++ [move]) = depth ceiling path := by
  cases ceiling with
  | none => rfl
  | some top =>
      have different : top ≠ path ++ [move] := fun same => other (congrArg some same)
      have above_iff : top <+: path ++ [move] ↔ top <+: path := by
        rw [List.prefix_concat_iff]
        simp [different]
      simp only [depth, above_iff]

theorem depth_map
    {Other : Type}
    [DecidableEq Other]
    {rename : Move → Other}
    (faithful : Function.Injective rename)
    (ceiling : Option (List Move))
    (path : List Move) :
    depth (ceiling.map (List.map rename)) (path.map rename) = depth ceiling path := by
  cases ceiling with
  | none => rfl
  | some top =>
      simp only [Option.map_some, depth, List.prefix_map_iff_of_injective faithful,
        List.length_map]

end Depth

theorem inits_concat {Element : Type} (list : List Element) (last : Element) :
    (list ++ [last]).inits = list.inits ++ [list ++ [last]] := by
  rw [List.inits_append]
  rfl

theorem any_same_iff (ceiling : Option (List String)) (pieces : List String) :
    (ceiling.map fun top => (⟨true, top⟩ : Path)).any (Path.same ⟨true, pieces⟩) = true ↔
      ceiling.map moves = some (moves pieces) := by
  cases ceiling with
  | none => simp
  | some top =>
      simp only [Option.map_some, Option.any_some, Path.same, Path.components_of_rooted,
        beq_iff_eq, List.cons.injEq, true_and, Option.some.injEq]
      exact eq_comm

/-- The directories of a search have the moves of the start from the ceiling on. -/
theorem map_components_upTo (ceiling : Option (List String)) (pieces : List String) :
    (upTo (ceiling.map fun top => ⟨true, top⟩) (Path.ancestors ⟨true, pieces⟩)).reverse.map
        Path.components =
      ((moves pieces).inits.drop (depth (ceiling.map moves) (moves pieces))).map
        (.root :: ·) := by
  induction pieces using Path.induction_parent with
  | top pieces none =>
      have still := Path.parentPieces?_eq_none none
      have shallow := depth_le (ceiling.map moves) (moves pieces)
      rw [still, List.length_nil, Nat.le_zero] at shallow
      rw [Path.ancestors_eq_of_none none, upTo, upTo, ite_self, List.reverse_singleton,
        List.map_singleton, Path.components_of_rooted, still, shallow]
      rfl
  | below pieces parent found induction =>
      rcases Path.moves_parentPieces? found with ⟨move, split⟩
      rw [Path.ancestors_eq_of_some found, upTo]
      by_cases reached : ceiling.map moves = some (moves pieces)
      · rw [if_pos ((any_same_iff ceiling pieces).mpr reached), reached, depth,
          if_pos List.prefix_rfl, split, inits_concat,
          List.drop_append_of_le_length (by simp), List.reverse_singleton,
          List.map_singleton, Path.components_of_rooted, split]
        simp
      · have before := depth_le (ceiling.map moves) (moves parent)
        rw [if_neg (fun same => reached ((any_same_iff ceiling pieces).mp same)),
          List.reverse_cons, List.map_append, induction, split,
          depth_concat (split ▸ reached), inits_concat,
          List.drop_append_of_le_length (by rw [List.length_inits]; omega),
          List.map_append, List.map_singleton, List.map_singleton,
          Path.components_of_rooted, split]

theorem absolute_eq_ok_iff {current : Location} {path found : Path} :
    absolute current path = .ok found ↔
      Path.absolute? ⟨true, current⟩ path = some found := by
  rw [absolute, mapError_eq_ok_iff, Path.absolute]
  split <;> simp_all

theorem mapM_absolute_eq_ok
    {current : Location}
    {ceiling found : Option Path}
    (isFound : ceiling.mapM (absolute current) = .ok found) :
    (ceiling = none ∧ found = none) ∨
      ∃ path top, ceiling = some path ∧ absolute current path = .ok top ∧
        found = some top := by
  cases ceiling with
  | none =>
      cases isFound
      exact .inl ⟨rfl, rfl⟩
  | some path =>
      rcases bind_eq_ok_iff.mp isFound with ⟨top, isTop, ⟨⟩⟩
      exact .inr ⟨path, top, rfl, isTop, rfl⟩

/-- A search goes down from its ceiling to its start, both made absolute. -/
theorem directories_eq_ok
    {search : LayerSearch}
    {current : Location}
    {directories : List Path}
    (found : search.directories current = .ok directories) :
    ∃ (pieces : List String) (ceiling : Option (List String)),
      Path.absolute? ⟨true, current⟩ search.start = some ⟨true, pieces⟩ ∧
        moves pieces = Path.movesFrom current search.start ∧
        ceiling.map moves = search.ceiling.map (Path.movesFrom current) ∧
        directories =
          (upTo (ceiling.map fun top => ⟨true, top⟩)
            (Path.ancestors ⟨true, pieces⟩)).reverse := by
  rw [LayerSearch.directories] at found
  rcases bind_eq_ok_iff.mp found with ⟨start, isStart, found⟩
  rcases bind_eq_ok_iff.mp found with ⟨ceiling, isCeiling, ⟨⟩⟩
  rw [absolute_eq_ok_iff] at isStart
  rcases Path.moves_absolute? isStart with ⟨pieces, rfl, sameMoves, -⟩
  rcases mapM_absolute_eq_ok isCeiling with ⟨missing, rfl⟩ | ⟨path, top, given, isTop, rfl⟩
  · exact ⟨pieces, none, isStart, sameMoves, by rw [missing]; rfl, rfl⟩
  · rw [absolute_eq_ok_iff] at isTop
    rcases Path.moves_absolute? isTop with ⟨topPieces, rfl, sameTop, -⟩
    refine ⟨pieces, some topPieces, isStart, sameMoves, ?_, rfl⟩
    rw [given, Option.map_some, Option.map_some, sameTop]

/-- The directories of a search, by their components. -/
theorem map_components_directories
    {search : LayerSearch}
    {current : Location}
    {directories : List Path}
    (found : search.directories current = .ok directories) :
    directories.map Path.components =
      ((Path.movesFrom current search.start).inits.drop
          (depth (search.ceiling.map (Path.movesFrom current))
            (Path.movesFrom current search.start))).map
        (.root :: ·) := by
  rcases directories_eq_ok found with ⟨pieces, ceiling, -, sameStart, sameCeiling, rfl⟩
  rw [map_components_upTo, sameStart, sameCeiling]

theorem exists_absolute
    (current : Location)
    {path : Path}
    (notEmpty : path ≠ Path.empty) :
    ∃ found, absolute current path = .ok found := by
  rcases Path.exists_absolute?_iff.mpr notEmpty with ⟨found, isFound⟩
  exact ⟨found, absolute_eq_ok_iff.mpr isFound⟩

/-- A search finds its directories unless its start or its ceiling is the empty path. -/
theorem exists_directories
    {search : LayerSearch}
    (hasStart : search.start ≠ Path.empty)
    (hasCeiling : search.ceiling ≠ some Path.empty)
    (current : Location) :
    ∃ directories, search.directories current = .ok directories := by
  rcases exists_absolute current hasStart with ⟨start, isStart⟩
  have ceiling : ∃ top, search.ceiling.mapM (absolute current) = .ok top := by
    cases isCeiling : search.ceiling with
    | none => exact ⟨none, rfl⟩
    | some path =>
        rw [isCeiling] at hasCeiling
        have notEmpty : path ≠ Path.empty := fun isEmpty => hasCeiling (congrArg some isEmpty)
        rcases exists_absolute current notEmpty with ⟨top, isTop⟩
        exact ⟨some top, bind_eq_ok_iff.mpr ⟨top, isTop, rfl⟩⟩
  rcases ceiling with ⟨top, isTop⟩
  refine ⟨(upTo top start.ancestors).reverse, ?_⟩
  rw [LayerSearch.directories]
  exact bind_eq_ok_iff.mpr ⟨start, isStart, bind_eq_ok_iff.mpr ⟨top, isTop, rfl⟩⟩

end Concordance.LayerSearch
