import Concordance.Proofs.Path.Extension

/-!
# Paths as seen from a directory

A path that lies below a directory is seen from there as the pieces behind the
directory, from the first to the last one that contributes a component; every
other path is seen as it is (`SeenFrom`).  The directory may be spelled in any
way, since only its components count.  Each path is seen in exactly one way,
which is what taking the directory away gives (`seenFrom_iff`).
-/

namespace Concordance.Path

/-! ### Pieces at the ends -/

/-- Whether pieces contribute something at both of their ends. -/
structure Trimmed (pieces : List String) : Prop where
  head : ∀ piece ∈ pieces.head?, (component? false piece).isSome = true
  last : ∀ piece ∈ pieces.getLast?, (component? false piece).isSome = true

/-- A path as it is seen from a directory. -/
inductive SeenFrom (path root : Path) : Path → Prop
  /-- The empty path is no directory to see something from. -/
  | nowhere
      (isNowhere : root.components = []) :
      SeenFrom path root path
  | aside
      (notBelow : ¬ root.components <+: path.components) :
      SeenFrom path root path
  | below
      {front rest back : List String}
      (somewhere : root.components ≠ [])
      (cut : path.pieces = front ++ (rest ++ back))
      (isRoot : components ⟨path.rooted, front⟩ = root.components)
      (trimmed : Trimmed rest)
      (idle : moves back = []) :
      SeenFrom path root ⟨false, rest⟩

theorem trimPieces_of_idle {pieces : List String} (idle : moves pieces = []) :
    trimPieces false pieces = [] := by
  rcases trimPieces_cases pieces with isNil | ⟨kept, piece, component, isTrimmed, moving⟩
  · exact isNil
  · rw [← moves_trimPieces, isTrimmed, moves_append, moves_cons_of_some moving] at idle
    exact absurd (List.append_eq_nil_iff.mp idle).2 (List.cons_ne_nil _ _)

theorem trimPieces_append_of_idle
    {back : List String}
    (idle : moves back = [])
    (leading : Bool)
    (pieces : List String)
    (something : pieces ≠ []) :
    trimPieces leading (pieces ++ back) = trimPieces leading pieces := by
  have behind (others : List String) :
      trimPieces false (others ++ back) = trimPieces false others := by
    induction others with
    | nil => exact trimPieces_of_idle idle
    | cons first others induction => rw [List.cons_append, trimPieces, trimPieces, induction]
  cases pieces with
  | nil => exact (something rfl).elim
  | cons first others => rw [List.cons_append, trimPieces, trimPieces, behind]

theorem dropComponents_of_idle {pieces : List String} (idle : moves pieces = []) :
    dropComponents false 0 pieces = [] := by
  induction pieces with
  | nil => rfl
  | cons first others induction =>
      have silent := List.filterMap_eq_nil_iff.mp idle first List.mem_cons_self
      rw [dropComponents, silent, Option.isSome_none, if_neg Bool.false_ne_true]
      exact induction (moves_cons_of_none silent others ▸ idle)

/-- Dropping what contributes nothing at both ends leaves trimmed pieces. -/
theorem Trimmed.trimPieces_eq
    {rest back : List String}
    (trimmed : Trimmed rest)
    (idle : moves back = []) :
    trimPieces false (dropComponents false 0 (rest ++ back)) = rest := by
  cases isRest : rest with
  | nil => rw [List.nil_append, dropComponents_of_idle idle, trimPieces]
  | cons first others =>
      have something : rest ≠ [] := isRest ▸ List.cons_ne_nil first others
      have isFirst : (component? false first).isSome = true :=
        trimmed.head first (by rw [isRest]; rfl)
      have isLast := trimmed.last _ (List.getLast_mem_getLast? something)
      rw [List.cons_append, dropComponents, if_pos isFirst, ← List.cons_append, ← isRest,
        trimPieces_append_of_idle idle false rest something,
        ← List.dropLast_append_getLast something]
      refine trimPieces_append_of_some (fun leading => ?_) false _
      rw [(component?_of_isSome isLast).2 leading]
      exact isLast

/-! ### Cutting pieces by their components -/

theorem piecesComponents_false (pieces : List String) :
    piecesComponents false pieces = moves pieces := by
  cases pieces with
  | nil => rfl
  | cons piece pieces =>
      rw [piecesComponents, moves, List.filterMap_cons]
      cases component? false piece <;> rfl

/-- Only the first piece can be a leading one. -/
theorem piecesComponents_append
    {leading : Bool}
    {front : List String}
    (begun : front ≠ [] ∨ leading = false)
    (rest : List String) :
    piecesComponents leading (front ++ rest) = piecesComponents leading front ++ moves rest := by
  cases front with
  | nil =>
      cases begun.resolve_left (· rfl)
      rw [List.nil_append, piecesComponents_false]
      rfl
  | cons first others =>
      rw [List.cons_append, piecesComponents, piecesComponents, List.filterMap_append,
        List.append_assoc]
      rfl

theorem dropComponents_piecesComponents
    {leading : Bool}
    {front : List String}
    (begun : front ≠ [] ∨ leading = false)
    (rest : List String) :
    dropComponents leading (piecesComponents leading front).length (front ++ rest) =
      dropComponents false 0 rest := by
  cases front with
  | nil =>
      cases begun.resolve_left (· rfl)
      rfl
  | cons first others =>
      change dropComponents leading ((component? leading first).toList ++ moves others).length
        (first :: (others ++ rest)) = _
      rw [← dropComponents_append others rest]
      cases found : component? leading first with
      | none =>
          rw [Option.toList_none, List.nil_append]
          cases (moves others).length <;>
            rw [dropComponents, found, Option.isSome_none, if_neg Bool.false_ne_true]
      | some component =>
          rw [Option.toList_some, List.singleton_append, List.length_cons, dropComponents, found,
            Option.isSome_some, if_pos rfl]

/-- Pieces can be cut behind any number of moves, in front of one that moves. -/
theorem exists_cut {pieces : List String} {count : Nat} (enough : count ≤ (moves pieces).length) :
    ∃ front rest, pieces = front ++ rest ∧ (moves front).length = count ∧
      ∀ piece ∈ rest.head?, (component? false piece).isSome = true := by
  induction pieces generalizing count with
  | nil => exact ⟨[], [], rfl, (Nat.le_zero.mp enough).symm, nofun⟩
  | cons piece pieces induction =>
      cases found : component? false piece with
      | none =>
          rw [moves_cons_of_none found] at enough
          rcases induction enough with ⟨front, rest, rfl, isCount, first⟩
          exact ⟨piece :: front, rest, rfl, by rw [moves_cons_of_none found, isCount], first⟩
      | some component =>
          rw [moves_cons_of_some found, List.length_cons] at enough
          cases count with
          | zero =>
              refine ⟨[], piece :: pieces, rfl, rfl, ?_⟩
              rintro _ ⟨⟩
              rw [found]
              rfl
          | succ count =>
              rcases induction (Nat.le_of_succ_le_succ enough) with
                ⟨front, rest, rfl, isCount, first⟩
              refine ⟨piece :: front, rest, rfl, ?_, first⟩
              rw [moves_cons_of_some found, List.length_cons, isCount]

/-- So they can behind a leading dot. -/
theorem exists_leading_cut
    {leading : Bool}
    {pieces : List String}
    {count : Nat}
    (some : 0 < count ∨ leading = false)
    (enough : count ≤ (piecesComponents leading pieces).length) :
    ∃ front rest, pieces = front ++ rest ∧ (front ≠ [] ∨ leading = false) ∧
      (piecesComponents leading front).length = count ∧
      ∀ piece ∈ rest.head?, (component? false piece).isSome = true := by
  cases leading with
  | false =>
      rw [piecesComponents_false] at enough
      rcases exists_cut enough with ⟨front, rest, cut, isCount, first⟩
      exact ⟨front, rest, cut, .inr rfl, by rw [piecesComponents_false, isCount], first⟩
  | true =>
      have positive : 0 < count := some.resolve_right (by decide)
      cases pieces with
      | nil => exact absurd (Nat.lt_of_lt_of_le positive enough) (Nat.lt_irrefl 0)
      | cons piece pieces =>
          change count ≤ ((component? true piece).toList ++ moves pieces).length at enough
          rw [List.length_append] at enough
          have short : (component? true piece).toList.length ≤ count := by
            cases component? true piece with
            | none => exact Nat.zero_le _
            | some => exact positive
          rcases exists_cut (Nat.sub_le_iff_le_add'.mpr enough) with
            ⟨front, rest, rfl, isCount, first⟩
          refine ⟨piece :: front, rest, rfl, .inl (List.cons_ne_nil _ _), ?_, first⟩
          change ((component? true piece).toList ++ moves front).length = count
          rw [List.length_append, isCount, Nat.add_sub_cancel' short]

/-! ### Taking a directory away -/

theorem root_mem_components_iff {path : Path} :
    Component.root ∈ path.components ↔ path.rooted = true := by
  have notRoot (leading : Bool) (piece : String) :
      component? leading piece ≠ some .root := by
    rw [component?]
    repeat' split
    all_goals simp
  rcases path with ⟨_ | _, pieces⟩
  · refine iff_of_false ?_ Bool.false_ne_true
    cases pieces with
    | nil => exact List.not_mem_nil
    | cons piece pieces =>
        change Component.root ∉ (component? true piece).toList ++ moves pieces
        rw [List.mem_append, Option.mem_toList, moves, List.mem_filterMap]
        rintro (isRoot | ⟨other, -, isRoot⟩)
        · exact notRoot true piece isRoot
        · exact notRoot false other isRoot
  · rw [components_of_rooted]
    exact iff_of_true List.mem_cons_self rfl

theorem rooted_eq_of_components_eq
    {path other : Path}
    (same : path.components = other.components) :
    path.rooted = other.rooted := by
  rw [Bool.eq_iff_iff, ← root_mem_components_iff, ← root_mem_components_iff, same]

/-- The components of a path that is cut behind its first piece, or behind the root. -/
theorem components_append
    {rooted : Bool}
    {front : List String}
    (begun : front ≠ [] ∨ (!rooted) = false)
    (rest : List String) :
    components ⟨rooted, front ++ rest⟩ = components ⟨rooted, front⟩ ++ moves rest := by
  rw [components, components, piecesComponents_append begun, List.append_assoc]

/-- The number of components behind the root, if a path starts there. -/
theorem length_components (rooted : Bool) (pieces : List String) :
    (components ⟨rooted, pieces⟩).length =
      (if rooted then 1 else 0) + (piecesComponents (!rooted) pieces).length := by
  rw [components, List.length_append]
  cases rooted <;> rfl

theorem stripBase?_of_below
    {root path : Path}
    {front rest back : List String}
    (somewhere : root.components ≠ [])
    (cut : path.pieces = front ++ (rest ++ back))
    (isRoot : components ⟨path.rooted, front⟩ = root.components)
    (trimmed : Trimmed rest)
    (idle : moves back = []) :
    path.stripBase? root = some ⟨false, rest⟩ := by
  rcases path with ⟨rooted, pieces⟩
  obtain rfl : pieces = front ++ (rest ++ back) := cut
  have begun : front ≠ [] ∨ (!rooted) = false := by
    cases rooted with
    | true => exact .inr rfl
    | false =>
        refine .inl ?_
        rintro rfl
        exact somewhere isRoot.symm
  have isCount : root.components.length - (if root.rooted then 1 else 0) =
      (piecesComponents (!rooted) front).length := by
    rw [← rooted_eq_of_components_eq isRoot, ← isRoot, length_components, Nat.add_sub_cancel_left]
  rw [stripBase?, if_neg (by simpa using somewhere), if_pos, isCount]
  · dsimp only
    rw [dropComponents_piecesComponents begun, trimmed.trimPieces_eq idle]
  · rw [List.isPrefixOf_iff_prefix, components_append begun, isRoot]
    exact List.prefix_append _ _

theorem trimmed_trimPieces
    {pieces : List String}
    (first : ∀ piece ∈ pieces.head?, (component? false piece).isSome = true) :
    Trimmed (trimPieces false pieces) := by
  rcases trimPieces_prefix pieces with ⟨idle, cut, -⟩
  rcases trimPieces_cases pieces with isNil | ⟨kept, last, component, isTrimmed, moving⟩
  · rw [isNil]
    exact ⟨nofun, nofun⟩
  · constructor
    · intro piece isFirst
      refine first piece ?_
      rw [cut, List.head?_append, Option.mem_def.mp isFirst]
      rfl
    · intro piece isLast
      rw [isTrimmed, List.getLast?_concat] at isLast
      cases isLast
      rw [moving]
      rfl

theorem exists_seenFrom (path root : Path) : ∃ seen, SeenFrom path root seen := by
  by_cases isNowhere : root.components = []
  · exact ⟨path, .nowhere isNowhere⟩
  by_cases isBelow : root.components <+: path.components
  · rcases path with ⟨rooted, pieces⟩
    have positive : 0 < root.components.length := List.length_pos_iff.mpr isNowhere
    have short := isBelow.length_le
    rw [length_components rooted pieces] at short
    have enough : root.components.length - (if rooted then 1 else 0) ≤
        (piecesComponents (!rooted) pieces).length := Nat.sub_le_iff_le_add'.mpr short
    have some : 0 < root.components.length - (if rooted then 1 else 0) ∨ (!rooted) = false := by
      cases rooted with
      | true => exact .inr rfl
      | false => exact .inl positive
    rcases exists_leading_cut some enough with ⟨front, rest, rfl, begun, isCount, first⟩
    have sameLength : (components ⟨rooted, front⟩).length = root.components.length := by
      rw [length_components, isCount]
      refine Nat.add_sub_cancel' ?_
      split
      · exact positive
      · exact Nat.zero_le _
    have isFront : components ⟨rooted, front⟩ <+: components ⟨rooted, front ++ rest⟩ := by
      rw [components_append begun]
      exact List.prefix_append _ _
    have isRoot : components ⟨rooted, front⟩ = root.components :=
      (List.prefix_of_prefix_length_le isFront isBelow sameLength.le).eq_of_length sameLength
    rcases trimPieces_prefix rest with ⟨back, cut, silent⟩
    exact ⟨_, .below isNowhere (congrArg (front ++ ·) cut) isRoot (trimmed_trimPieces first)
      (List.filterMap_eq_nil_iff.mpr silent)⟩
  · exact ⟨path, .aside isBelow⟩

theorem seenFrom_iff {path root seen : Path} :
    SeenFrom path root seen ↔ (path.stripBase? root).getD path = seen := by
  have isSeen {seen : Path} (sees : SeenFrom path root seen) :
      (path.stripBase? root).getD path = seen := by
    cases sees with
    | nowhere isNowhere =>
        rw [stripBase?, if_pos (List.isEmpty_iff.mpr isNowhere), Option.getD_some]
    | aside notBelow =>
        have somewhere : root.components ≠ [] := by
          intro isNowhere
          exact notBelow (isNowhere ▸ List.nil_prefix)
        rw [stripBase?, if_neg (by simpa using somewhere),
          if_neg (by rwa [List.isPrefixOf_iff_prefix]), Option.getD_none]
    | below somewhere cut isRoot trimmed idle =>
        rw [stripBase?_of_below somewhere cut isRoot trimmed idle, Option.getD_some]
  constructor
  · exact isSeen
  · rintro rfl
    rcases exists_seenFrom path root with ⟨seen, sees⟩
    rw [isSeen sees]
    exact sees

end Concordance.Path
