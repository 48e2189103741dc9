import Concordance.Checkout
import Concordance.Proofs.Path.Ancestors
import Concordance.Proofs.Text.Search

/-!
# When two checkouts are the same directory

A checkout is the working directory followed by one name
(`components_checkoutDirectory`): the flattened name of the repository, an
underscore, and the flattened reference.  The underscore in the middle cannot
be told from one that stands in a name or a reference, or comes from a
separator there, so two repositories share a directory exactly if their
flattened texts are the same, or if one name goes on where the other one ends
and its reference is shorter by the same piece (`same_checkoutDirectory_iff`).
-/

namespace Concordance

open Concordance.Path (Component component?)

/-! ### The name of a checkout -/

/-- A text with an underscore in place of every separator. -/
def flatten (text : String) : String :=
  String.ofList (text.toList.map fun char => if isPathSeparator char then '_' else char)

/-- Whether a text has no separator, so that it stays as it is in the name of a checkout. -/
def Flat (text : String) : Prop :=
  ∀ char ∈ text.toList, isPathSeparator char = false

instance (text : String) : Decidable (Flat text) :=
  List.decidableBAll (isPathSeparator · = false) text.toList

theorem flatten_append (first second : String) :
    flatten (first ++ second) = flatten first ++ flatten second := by
  rw [flatten, flatten, flatten, String.toList_append, List.map_append, String.ofList_append]

theorem flatten_eq_self {text : String} (flat : Flat text) : flatten text = text := by
  rw [flatten]
  have same : (text.toList.map fun char => if isPathSeparator char then '_' else char) =
      text.toList := by
    refine (List.map_congr_left fun char inText => ?_).trans (List.map_id' _)
    rw [flat char inText]
    rfl
  rw [same, String.ofList_toList]

namespace Repository

theorem checkoutName_eq (repository : Repository) :
    repository.checkoutName =
      flatten repository.name ++ "_" ++ flatten repository.reference := by
  change flatten (repository.name ++ "_" ++ repository.reference) = _
  rw [flatten_append, flatten_append]
  rfl

theorem underscore_mem_checkoutName (repository : Repository) :
    '_' ∈ repository.checkoutName.toList := by
  rw [checkoutName_eq, String.toList_append, String.toList_append]
  simp

/-- Wherever it stands, the name of a checkout is one name. -/
theorem component?_checkoutName (repository : Repository) (leading : Bool) :
    component? leading repository.checkoutName = some (.name repository.checkoutName) := by
  have different {text : String} (without : '_' ∉ text.toList) :
      repository.checkoutName ≠ text := by
    rintro isText
    exact without (isText ▸ repository.underscore_mem_checkoutName)
  rw [component?, if_neg (different (by decide)), if_neg (different (by decide)),
    if_neg (different (by decide))]

theorem checkoutDirectory_eq (repository : Repository) (workDir : Path) :
    repository.checkoutDirectory workDir =
      ⟨workDir.rooted, Path.openPieces workDir.pieces ++ [repository.checkoutName]⟩ := by
  rcases workDir with ⟨rooted, pieces⟩
  cases pieces <;> rfl

theorem piecesComponents_append_name
    {name : String}
    (isName : ∀ leading, component? leading name = some (.name name))
    (leading : Bool)
    (pieces : List String) :
    Path.piecesComponents leading (pieces ++ [name]) =
      Path.piecesComponents leading pieces ++ [.name name] := by
  cases pieces with
  | nil =>
      change (component? leading name).toList ++ [] = _
      rw [isName]
      rfl
  | cons piece pieces =>
      rw [List.cons_append, Path.piecesComponents, List.filterMap_append, Path.piecesComponents,
        List.append_assoc, List.filterMap_cons, isName]
      rfl

theorem piecesComponents_openPieces (leading : Bool) (pieces : List String) :
    Path.piecesComponents leading (Path.openPieces pieces) =
      Path.piecesComponents leading pieces := by
  rw [Path.openPieces]
  split
  · rename_i last
    rcases List.getLast?_eq_some_iff.mp last with ⟨front, rfl⟩
    rw [List.dropLast_concat]
    cases front with
    | nil => rfl
    | cons piece front =>
        rw [List.cons_append, Path.piecesComponents, Path.piecesComponents,
          List.filterMap_append]
        simp [component?]
  · rfl

/-- A checkout lies directly below the working directory. -/
theorem components_checkoutDirectory (repository : Repository) (workDir : Path) :
    (repository.checkoutDirectory workDir).components =
      workDir.components ++ [.name repository.checkoutName] := by
  rw [checkoutDirectory_eq, Path.components, piecesComponents_append_name
    repository.component?_checkoutName, piecesComponents_openPieces, Path.components,
    List.append_assoc]

theorem same_checkoutDirectory_iff_checkoutName {first second : Repository} {workDir : Path} :
    (first.checkoutDirectory workDir).same (second.checkoutDirectory workDir) = true ↔
      first.checkoutName = second.checkoutName := by
  rw [Path.same, beq_iff_eq, components_checkoutDirectory, components_checkoutDirectory,
    List.append_cancel_left_eq, List.cons.injEq, and_iff_left rfl, Component.name.injEq]

/-! ### Shared directories -/

/--
Whether the flattened name of a repository goes on where that of another one
ends, and the reference of the other one begins with the same piece.
-/
def Overlaps (longer shorter : Repository) : Prop :=
  ∃ gap : String,
    flatten longer.name = flatten shorter.name ++ "_" ++ gap ∧
      flatten shorter.reference = gap ++ "_" ++ flatten longer.reference

theorem overlaps_iff {longer shorter : Repository} :
    longer.Overlaps shorter ↔
      ∃ gap : List Char,
        (flatten longer.name).toList = (flatten shorter.name).toList ++ '_' :: gap ∧
          (flatten shorter.reference).toList =
            gap ++ '_' :: (flatten longer.reference).toList := by
  constructor
  · rintro ⟨gap, name, reference⟩
    refine ⟨gap.toList, ?_, ?_⟩
    · rw [name, String.toList_append, String.toList_append, List.append_assoc]
      rfl
    · rw [reference, String.toList_append, String.toList_append, List.append_assoc]
      rfl
  · rintro ⟨gap, name, reference⟩
    refine ⟨String.ofList gap, String.toList_inj.mp ?_, String.toList_inj.mp ?_⟩
    · simp [name]
    · simp [reference]

theorem checkoutName_eq_iff {first second : Repository} :
    first.checkoutName = second.checkoutName ↔
      (flatten first.name = flatten second.name ∧
          flatten first.reference = flatten second.reference) ∨
        first.Overlaps second ∨ second.Overlaps first := by
  have written (repository : Repository) :
      repository.checkoutName.toList = (flatten repository.name).toList ++
        '_' :: (flatten repository.reference).toList := by
    rw [checkoutName_eq, String.toList_append, String.toList_append, List.append_assoc]
    rfl
  rw [← String.toList_inj, written, written, Text.append_cons_eq_append_cons_iff, overlaps_iff,
    overlaps_iff, String.toList_inj, String.toList_inj]

theorem Overlaps.underscore_mem
    {longer shorter : Repository}
    (overlaps : longer.Overlaps shorter) :
    '_' ∈ (flatten longer.name).toList ∧ '_' ∈ (flatten shorter.reference).toList ∧
      flatten longer.name ≠ flatten shorter.name := by
  rcases overlaps_iff.mp overlaps with ⟨gap, name, reference⟩
  refine ⟨by simp [name], by simp [reference], ?_⟩
  intro same
  rw [same] at name
  simpa using congrArg List.length name

/-- Two repositories that can be told apart by what stands around the underscore in the middle. -/
structure Separable (first second : Repository) : Prop where
  flat : Flat first.name ∧ Flat first.reference ∧ Flat second.name ∧ Flat second.reference
  plain :
    first.name = second.name ∨
      ('_' ∉ first.name.toList ∧ '_' ∉ second.name.toList) ∨
      ('_' ∉ first.reference.toList ∧ '_' ∉ second.reference.toList)

theorem Separable.symm
    {first second : Repository}
    (separable : first.Separable second) :
    second.Separable first where
  flat :=
    ⟨separable.flat.2.2.1, separable.flat.2.2.2, separable.flat.1, separable.flat.2.1⟩
  plain := separable.plain.imp Eq.symm (Or.imp And.symm And.symm)

theorem Separable.not_overlaps
    {longer shorter : Repository}
    (separable : longer.Separable shorter) :
    ¬ longer.Overlaps shorter := by
  intro overlaps
  rcases separable with ⟨⟨flatLonger, -, flatShorter, flatReference⟩, plain⟩
  rcases overlaps.underscore_mem with ⟨inName, inReference, different⟩
  rw [flatten_eq_self flatLonger] at inName different
  rw [flatten_eq_self flatShorter] at different
  rw [flatten_eq_self flatReference] at inReference
  rcases plain with same | noName | noReference
  · exact different same
  · exact noName.1 inName
  · exact noReference.2 inReference

theorem Separable.checkoutName_eq_iff
    {first second : Repository}
    (separable : first.Separable second) :
    first.checkoutName = second.checkoutName ↔
      (first.name, first.reference) = (second.name, second.reference) := by
  rcases separable.flat with ⟨flatFirst, flatFirstReference, flatSecond, flatSecondReference⟩
  rw [Repository.checkoutName_eq_iff,
    or_iff_left (not_or.mpr ⟨separable.not_overlaps, separable.symm.not_overlaps⟩),
    flatten_eq_self flatFirst, flatten_eq_self flatFirstReference, flatten_eq_self flatSecond,
    flatten_eq_self flatSecondReference, Prod.mk.injEq]

/--
Two repositories have one checkout between them exactly if their flattened
names and references are the same, or one name goes on where the other ends
and the references make up for it.  Where no separator occurs, and the names
agree or either the names or the references have no underscore, the name and
the reference tell checkouts apart.
-/
theorem same_checkoutDirectory_iff (workDir : Path) (first second : Repository) :
    ((first.checkoutDirectory workDir).same (second.checkoutDirectory workDir) = true ↔
        (flatten first.name = flatten second.name ∧
            flatten first.reference = flatten second.reference) ∨
          first.Overlaps second ∨ second.Overlaps first) ∧
      (first.Separable second →
        ((first.checkoutDirectory workDir).same (second.checkoutDirectory workDir) = true ↔
          (first.name, first.reference) = (second.name, second.reference))) := by
  rw [same_checkoutDirectory_iff_checkoutName]
  exact ⟨checkoutName_eq_iff, Separable.checkoutName_eq_iff⟩

/-- Two versions of a repository. -/
def pinnedTwice : Repository × Repository :=
  ({ name := "a_b", url := "u" }, { name := "a_b", url := "u", pinned := some "v_1" })

/-- Two versions of one repository are checked out apart, whatever underscores they have. -/
theorem same_checkoutDirectory_iff_pinnedTwice :
    pinnedTwice.1.Separable pinnedTwice.2 ∧
      (pinnedTwice.1.checkoutDirectory (.ofText "w")).same
          (pinnedTwice.2.checkoutDirectory (.ofText "w")) = false := by
  have separable : pinnedTwice.1.Separable pinnedTwice.2 := ⟨by decide +kernel, .inl rfl⟩
  have told := (same_checkoutDirectory_iff (.ofText "w") pinnedTwice.1 pinnedTwice.2).2 separable
  refine ⟨separable, Bool.eq_false_iff.mpr fun same => ?_⟩
  exact absurd (told.mp same) (by decide +kernel)

/-- Two repositories of different names and references can be checked out into one directory. -/
theorem not_forall_checkoutDirectory_ne :
    ¬ ∀ (workDir : Path) (first second : Repository),
      (first.name, first.reference) ≠ (second.name, second.reference) →
        (first.checkoutDirectory workDir).same (second.checkoutDirectory workDir) = false := by
  intro apart
  have shared := apart (.ofText ".doccer")
    { name := "a_b", url := "u", pinned := some "c" }
    { name := "a", url := "v", pinned := some "b_c" } (by decide +kernel)
  exact absurd shared (by decide +kernel)

end Repository

end Concordance
