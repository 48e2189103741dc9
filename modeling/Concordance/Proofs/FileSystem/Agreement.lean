import Concordance.Proofs.FileSystem.Places

/-!
# File systems that agree

Two file systems agree on some locations if the same entries lie there.  Where
a path points does not depend on the file system (`Path.target`), only whether
it can be followed does, and for that its way matters (`AgreeOn.enters`).  So
what is found under a path is told by its way and the location that it points
to (`AgreeOn.find?_append_name`).
-/

namespace Concordance

open Concordance.Path (Component moves component?)

namespace Path

/-- The locations to which a path points on its way: its start, and one after each move. -/
def way (current : Location) (path : Path) : List Location :=
  (moves path.pieces).scanl Component.seenFrom (FileSystem.startOf current path)

/-- The location to which a path points, whatever lies there. -/
def target (current : Location) (path : Path) : Location :=
  (moves path.pieces).foldl Component.seenFrom (FileSystem.startOf current path)

theorem way_openPieces (current : Location) (path : Path) :
    way current ⟨path.rooted, openPieces path.pieces⟩ = path.way current := by
  rw [way, way, moves_openPieces]
  rfl

theorem target_openPieces (current : Location) (path : Path) :
    target current ⟨path.rooted, openPieces path.pieces⟩ = path.target current := by
  rw [target, target, moves_openPieces]
  rfl

theorem target_append_name
    {name : String}
    (plain : component? false name = some (.name name))
    (current : Location)
    (rooted : Bool)
    (pieces : List String) :
    target current ⟨rooted, pieces ++ [name]⟩ = target current ⟨rooted, pieces⟩ ++ [name] := by
  have last : moves [name] = [.name name] := by
    rw [moves_cons_of_some plain]
    rfl
  rw [target, moves_append, last, List.foldl_append]
  rfl

end Path

namespace FileSystem

variable {files first second third : FileSystem} {current : Location}

theorem Enters.eq_target
    {base : Path}
    {directory : Location}
    (enters : files.Enters current base directory) :
    directory = base.target current :=
  eq_foldl_of_foldlM_enter? enters.entered

/-- What is found under a path that ends in a name lies where the path points. -/
theorem find?_append_name_iff
    {rooted : Bool}
    {pieces : List String}
    {name : String}
    (plain : component? false name = some (.name name))
    {location : Location}
    {entry : Entry} :
    files.find? current ⟨rooted, pieces ++ [name]⟩ = some (location, entry) ↔
      PlainName name ∧
        files.Enters current ⟨rooted, pieces⟩ (Path.target current ⟨rooted, pieces⟩) ∧
        location = Path.target current ⟨rooted, pieces ++ [name]⟩ ∧
        files.entry? location = some entry := by
  rw [Path.target_append_name plain]
  constructor
  · intro found
    rcases (resolve_append_name_iff plain).mp (resolve_of_find? found) with
      ⟨isName, directory, enters, isPlace⟩
    rcases placeIn_eq_existing_iff.mp isPlace.symm with ⟨rfl, there⟩
    cases enters.eq_target
    exact ⟨isName, enters, rfl, there⟩
  · rintro ⟨isName, enters, rfl, there⟩
    refine find?_of_resolve ((resolve_append_name_iff plain).mpr ⟨isName, _, enters, ?_⟩)
    exact (placeIn_eq_existing_iff.mpr ⟨rfl, there⟩).symm

/-! ### Agreement -/

/-- Whether the same entries lie at the locations that are seen. -/
def AgreeOn (seen : Location → Prop) (first second : FileSystem) : Prop :=
  ∀ location, seen location → first.entry? location = second.entry? location

variable {seen : Location → Prop}

theorem AgreeOn.refl : AgreeOn seen files files :=
  fun _ _ => rfl

theorem AgreeOn.symm (agree : AgreeOn seen first second) : AgreeOn seen second first :=
  fun location isSeen => (agree location isSeen).symm

theorem AgreeOn.trans
    (left : AgreeOn seen first second)
    (right : AgreeOn seen second third) :
    AgreeOn seen first third :=
  fun location isSeen => (left location isSeen).trans (right location isSeen)

theorem AgreeOn.enter?
    (agree : AgreeOn seen first second)
    {location next : Location}
    {move : Component}
    (isSeen : seen (move.seenFrom location))
    (entered : first.enter? location move = some next) :
    second.enter? location move = some next := by
  cases move with
  | name name =>
      have same : first.entry? (location ++ [name]) = second.entry? (location ++ [name]) :=
        agree _ isSeen
      rw [FileSystem.enter?] at entered ⊢
      rw [← same]
      exact entered
  | root | current | parent => exact entered

theorem AgreeOn.foldlM_enter?
    (agree : AgreeOn seen first second)
    {path : List Component}
    {start location : Location}
    (onWay : ∀ each ∈ path.scanl Component.seenFrom start, seen each)
    (entered : path.foldlM first.enter? start = some location) :
    path.foldlM second.enter? start = some location := by
  induction path generalizing start with
  | nil => exact entered
  | cons move path induction =>
      rw [List.scanl_cons, List.forall_mem_cons] at onWay
      rw [List.foldlM_cons] at entered ⊢
      rcases Option.bind_eq_some_iff.mp entered with ⟨next, here, entered⟩
      cases eq_seenFrom_of_enter? here
      have isSeen : seen (move.seenFrom start) := by
        refine onWay.2 _ ?_
        cases path <;> simp
      exact Option.bind_eq_some_iff.mpr
        ⟨_, agree.enter? isSeen here, induction onWay.2 entered⟩

/-- Whether a path can be followed is told by its way. -/
theorem AgreeOn.enters
    (agree : AgreeOn seen first second)
    {base : Path}
    (onWay : ∀ each ∈ base.way current, seen each)
    {directory : Location}
    (enters : first.Enters current base directory) :
    second.Enters current base directory := by
  refine ⟨enters.zeroFree, ?_, agree.foldlM_enter? onWay enters.entered⟩
  rw [← agree _ (onWay _ ?_)]
  · exact enters.isStart
  · rw [Path.way]
    cases moves base.pieces <;> simp

/-- What is found under a path is told by its way and by what lies where it points. -/
theorem AgreeOn.find?_append_name
    (agree : AgreeOn seen first second)
    {rooted : Bool}
    {pieces : List String}
    {name : String}
    (plain : component? false name = some (.name name))
    (onWay : ∀ each ∈ Path.way current ⟨rooted, pieces⟩, seen each)
    (atTarget : seen (Path.target current ⟨rooted, pieces ++ [name]⟩)) :
    first.find? current ⟨rooted, pieces ++ [name]⟩ =
      second.find? current ⟨rooted, pieces ++ [name]⟩ := by
  refine Option.ext fun ⟨location, entry⟩ => ?_
  rw [find?_append_name_iff plain, find?_append_name_iff plain]
  constructor
  · rintro ⟨isName, enters, rfl, there⟩
    exact ⟨isName, agree.enters onWay enters, rfl, agree _ atTarget ▸ there⟩
  · rintro ⟨isName, enters, rfl, there⟩
    exact ⟨isName, agree.symm.enters onWay enters, rfl, agree _ atTarget ▸ there⟩

/-! ### Changes -/

theorem AgreeOn.put
    (agree : AgreeOn seen first second)
    {location : Location}
    (below : location ≠ [])
    (entry : Entry) :
    AgreeOn seen (first.put location entry) (second.put location entry) := by
  intro other isSeen
  rw [lookup_put below, lookup_put below, agree other isSeen]

theorem lookup_prune {location other : Location} (below : location ≠ []) :
    entry? (files.prune location) other =
      if location <+: other then none else files.entry? other := by
  unfold entry? prune
  split
  · rename_i isRoot
    rw [if_neg (isRoot ▸ mt List.prefix_nil.mp below)]
  · rw [lookup_filter (!location.isPrefixOf ·)]
    by_cases inside : location <+: other
    · rw [if_pos inside, if_neg (by simp [List.isPrefixOf_iff_prefix.mpr inside])]
    · rw [if_neg inside, if_pos]
      rw [Bool.not_eq_true', ← Bool.not_eq_true, List.isPrefixOf_iff_prefix]
      exact inside

theorem AgreeOn.prune
    (agree : AgreeOn seen first second)
    {location : Location}
    (below : location ≠ []) :
    AgreeOn seen (first.prune location) (second.prune location) := by
  intro other isSeen
  rw [lookup_prune below, lookup_prune below, agree other isSeen]

/-- The files without what lies at a location, if something does. -/
def without (files : FileSystem) (location : Location) : FileSystem :=
  if (files.entry? location).isSome then files.prune location else files

theorem entry?_without {location : Location} (below : location ≠ []) :
    entry? (files.without location) location = none := by
  rw [without]
  split
  · rw [lookup_prune below, if_pos (List.prefix_refl _)]
  · rename_i nothing
    exact Option.not_isSome_iff_eq_none.mp nothing

theorem AgreeOn.without
    {seen : Location → Prop}
    (agree : AgreeOn seen first second)
    {location : Location}
    (below : location ≠ [])
    (isSeen : seen location) :
    AgreeOn seen (first.without location) (second.without location) := by
  rw [FileSystem.without, FileSystem.without, agree location isSeen]
  split
  · exact agree.prune below
  · exact agree

end FileSystem

end Concordance
