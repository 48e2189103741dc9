import Concordance.Proofs.Path.Ancestors

/-!
# Absolute paths made absolute

Making a path absolute leaves three things of it: the pieces that move,
whether two slashes stand in front, and whether one stands at the end
(`absolute?_eq_settled`).  The result is written in a settled form, from which
just these can be read again, so a path that has been made absolute once is
not changed by being made absolute again (`absolute?_absolute?`), however it
was spelled at first.
-/

namespace Concordance.Path

/-- Whether pieces all contribute a component behind the root: none is empty or a dot. -/
def Plain (pieces : List String) : Prop :=
  ∀ piece ∈ pieces, (component? false piece).isSome

instance (pieces : List String) : Decidable (Plain pieces) :=
  inferInstanceAs (Decidable (∀ piece ∈ pieces, (component? false piece).isSome))

/-- The path from the root with given pieces, and with further slashes in front and at the end. -/
def settled (double : Bool) (pieces : List String) (closed : Bool) : Path :=
  let front : Path :=
    ⟨true, if double then "" :: (if pieces.isEmpty then [""] else pieces) else pieces⟩
  if closed then front.join empty else front

/-! ### Plain pieces -/

theorem plain_plainPieces (pieces : List String) : Plain (plainPieces pieces) :=
  fun _ inPlain => (List.mem_filter.mp inPlain).2

theorem plainPieces_eq_self {pieces : List String} (plain : Plain pieces) :
    plainPieces pieces = pieces :=
  List.filter_eq_self.mpr plain

theorem plainPieces_append (first second : List String) :
    plainPieces (first ++ second) = plainPieces first ++ plainPieces second :=
  List.filter_append _ _

theorem Plain.append
    {first second : List String}
    (plainFirst : Plain first)
    (plainSecond : Plain second) :
    Plain (first ++ second) :=
  List.forall_mem_append.mpr ⟨plainFirst, plainSecond⟩

theorem Plain.not_mem_empty {pieces : List String} (plain : Plain pieces) : "" ∉ pieces :=
  fun inPieces => Bool.false_ne_true (plain "" inPieces)

theorem Plain.openPieces_eq {pieces : List String} (plain : Plain pieces) :
    openPieces pieces = pieces :=
  if_neg fun last => plain.not_mem_empty (List.mem_of_getLast? last)

/-! ### The settled form -/

section

variable {pieces : List String}

/-- A path with plain pieces is written with an empty piece for every further slash. -/
theorem settled_eq_of_ne_nil
    (plain : Plain pieces)
    (nonempty : pieces ≠ [])
    (double closed : Bool) :
    settled double pieces closed =
      ⟨true, (if double then [""] else []) ++ pieces ++ if closed then [""] else []⟩ := by
  have front : (if double then "" :: (if pieces.isEmpty then [""] else pieces) else pieces) =
      (if double then [""] else []) ++ pieces := by
    have something : pieces.isEmpty = false := by simpa using nonempty
    rw [something]
    cases double <;> rfl
  have isOpen : openPieces ((if double then [""] else []) ++ pieces) =
      (if double then [""] else []) ++ pieces := by
    refine if_neg fun last => plain.not_mem_empty ?_
    rw [List.getLast?_append_of_ne_nil _ nonempty] at last
    exact List.mem_of_getLast? last
  rw [settled, front]
  cases closed with
  | false => exact congrArg (Path.mk true) (List.append_nil _).symm
  | true =>
      have something : ((if double then [""] else []) ++ pieces).isEmpty = false := by
        simpa using fun _ => nonempty
      simp only [if_true, join, empty, Bool.false_eq_true, if_false, something, isOpen,
        List.isEmpty_nil]

theorem hasDoubleRoot_settled
    (plain : Plain pieces)
    (nonempty : pieces ≠ [])
    (double closed : Bool) :
    (settled double pieces closed).hasDoubleRoot = double := by
  rw [settled_eq_of_ne_nil plain nonempty]
  cases pieces with
  | nil => exact (nonempty rfl).elim
  | cons first rest =>
      have moving : first ≠ "" := fun isEmpty =>
        plain.not_mem_empty (isEmpty ▸ List.mem_cons_self)
      cases double <;> simp [hasDoubleRoot, moving]

theorem endsWithSlash_settled
    (plain : Plain pieces)
    (nonempty : pieces ≠ [])
    (double closed : Bool) :
    (settled double pieces closed).endsWithSlash = closed := by
  rw [settled_eq_of_ne_nil plain nonempty, endsWithSlash]
  cases closed with
  | true => simp
  | false =>
      have last := List.getLast?_eq_some_getLast nonempty
      have moving : pieces.getLast nonempty ≠ "" := fun isEmpty =>
        plain.not_mem_empty (isEmpty ▸ List.getLast_mem nonempty)
      simp only [Bool.false_eq_true, if_false, List.append_nil,
        List.getLast?_append_of_ne_nil _ nonempty, last, beq_eq_false_iff_ne]
      exact moving

theorem plainPieces_settled
    (plain : Plain pieces)
    (nonempty : pieces ≠ [])
    (double closed : Bool) :
    plainPieces (settled double pieces closed).pieces = pieces := by
  have slashes (further : Bool) : plainPieces (if further then [""] else []) = [] := by
    cases further <;> rfl
  rw [settled_eq_of_ne_nil plain nonempty, plainPieces_append, plainPieces_append, slashes,
    slashes, plainPieces_eq_self plain, List.nil_append, List.append_nil]

theorem rooted_settled (double : Bool) (pieces : List String) (closed : Bool) :
    (settled double pieces closed).rooted = true := by
  rw [settled]
  cases closed with
  | false => rfl
  | true =>
      rcases join_empty_of_rooted
        (if double then "" :: (if pieces.isEmpty then [""] else pieces) else pieces) with
        ⟨joined, isJoined, -⟩
      exact congrArg rooted isJoined

/-- What settled forms are made from can be read from them again. -/
theorem settled_settled
    (plain : Plain pieces)
    (double closed : Bool) :
    let path := settled double pieces closed
    settled path.hasDoubleRoot (plainPieces path.pieces) path.endsWithSlash = path := by
  intro path
  by_cases isNil : pieces = []
  · -- If no piece moves, the slash at the end is one of those in front.
    subst isNil
    cases double <;> cases closed <;> rfl
  · rw [hasDoubleRoot_settled plain isNil, endsWithSlash_settled plain isNil,
      plainPieces_settled plain isNil]

end

/-! ### Making absolute -/

/-- The pieces that move, of a path that is seen from a directory. -/
def plainFrom (current : List String) (path : Path) : List String :=
  (if path.rooted then [] else current) ++ plainPieces path.pieces

theorem Plain.plainFrom {current : List String} (plain : Plain current) (path : Path) :
    Plain (plainFrom current path) := by
  refine Plain.append ?_ (plain_plainPieces path.pieces)
  split
  · exact nofun
  · exact plain

theorem plainFrom_of_rooted {path : Path} (rooted : path.rooted = true) (current : List String) :
    plainFrom current path = plainPieces path.pieces := by
  rw [plainFrom, if_pos rooted, List.nil_append]

/-- A relative path puts its moving pieces behind those of the directory. -/
theorem join_plainPieces
    {current : List String}
    (plain : Plain current)
    {path : Path}
    (relative : path.rooted = false) :
    (if (plainPieces path.pieces).isEmpty then (⟨true, current⟩ : Path)
      else (⟨true, current⟩ : Path).join ⟨false, plainPieces path.pieces⟩) =
      ⟨true, plainFrom current path⟩ := by
  rw [plainFrom, relative, if_neg Bool.false_ne_true]
  cases own : plainPieces path.pieces with
  | nil => exact congrArg (Path.mk true) (List.append_nil current).symm
  | cons first rest =>
      cases current with
      | nil => rfl
      | cons above below =>
          rw [if_neg (by simp), join, if_neg Bool.false_ne_true, if_neg (by simp),
            if_neg (by simp), plain.openPieces_eq]

/-- What making absolute leaves of a path. -/
theorem absolute?_eq_settled
    {current : List String}
    (plain : Plain current)
    {path : Path}
    (notEmpty : path ≠ empty) :
    absolute? ⟨true, current⟩ path =
      some (settled path.hasDoubleRoot (plainFrom current path) path.endsWithSlash) := by
  rw [absolute?, if_neg notEmpty, settled]
  dsimp only
  cases isRooted : path.rooted with
  | true =>
      rw [plainFrom_of_rooted isRooted]
      cases path.hasDoubleRoot <;> rfl
  | false =>
      have single : path.hasDoubleRoot = false := by rw [hasDoubleRoot, isRooted, Bool.false_and]
      rw [single, if_neg Bool.false_ne_true, if_neg Bool.false_ne_true,
        if_neg Bool.false_ne_true, join_plainPieces plain isRooted]

/-- A path that was made absolute is left as it is. -/
theorem absolute?_absolute?
    {current : List String}
    (plain : Plain current)
    {path absolute : Path}
    (found : absolute? ⟨true, current⟩ path = some absolute) :
    absolute? ⟨true, current⟩ absolute = some absolute := by
  have notEmpty := exists_absolute?_iff.mp ⟨absolute, found⟩
  rw [absolute?_eq_settled plain notEmpty, Option.some.injEq] at found
  subst found
  have rooted := rooted_settled path.hasDoubleRoot (plainFrom current path) path.endsWithSlash
  have stillNotEmpty :
      settled path.hasDoubleRoot (plainFrom current path) path.endsWithSlash ≠ empty :=
    fun isEmpty => Bool.false_ne_true ((congrArg Path.rooted isEmpty).symm.trans rooted)
  rw [absolute?_eq_settled plain stillNotEmpty, plainFrom_of_rooted rooted,
    settled_settled (plain.plainFrom path)]

end Concordance.Path
