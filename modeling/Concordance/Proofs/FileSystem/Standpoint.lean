import Concordance.Glob.Expansion
import Concordance.Proofs.FileSystem.Places
import Concordance.Proofs.Path.Extension
import Mathlib.Data.List.Nodup

/-!
# What is seen from a directory

The names in a directory are those of the entries directly below it, in order
(`mem_names_iff`, `pairwise_names`).  Two directories hold the same if the same
names lead to files and to directories below them; then, as long as no step goes
up, a path from the one leads where the same path from the other leads
(`SameView.find?`), and the directories there list the same names
(`SameView.namesIn`).  The directories may lie in different file systems, and the
paths to them may be written in any way.
-/

namespace Concordance

open Concordance.Path (Component moves component?)

/-- Whether an entry is a directory. -/
def Entry.isDirectory : Entry → Bool
  | .directory => true
  | .file .. => false

namespace FileSystem

variable {files : FileSystem} {current : Location}

/-! ### Names -/

/-- Whether all entries have names that a directory can have, and no location has two entries. -/
structure WellFormed (files : FileSystem) : Prop where
  fileNames : ∀ entry ∈ files.entries, ∀ name ∈ entry.1, FileName name
  once : (files.entries.map Prod.fst).Nodup

theorem FileName.slashFree {name : String} (isName : FileName name) : '/' ∉ name.toList := by
  have legible := Path.legible_ofText name
  rw [isName.isPath] at legible
  exact legible.slashFree name (List.mem_singleton_self name)

theorem FileName.ne_empty {name : String} (isName : FileName name) : name ≠ "" := by
  rintro rfl
  cases isName.plain

theorem FileName.ne_up {name : String} (isName : FileName name) : name ≠ ".." := by
  rintro rfl
  cases isName.plain

theorem nameIn?_eq_some_iff {directory location : Location} {name : String} :
    nameIn? directory location = some name ↔ location = directory ++ [name] := by
  have cut_iff : directory.isPrefixOf? location = some [name] ↔ location = directory ++ [name] :=
    List.isPrefixOf?_eq_some_iff_append_eq.trans eq_comm
  rw [← cut_iff, nameIn?]
  split
  · rename_i isCut
    rw [isCut]
    simp
  · rename_i other
    constructor
    · exact nofun
    · exact fun isCut => (other name isCut).elim

theorem mem_names_iff {directory : Location} {name : String} :
    name ∈ files.names directory ↔ ∃ entry, (directory ++ [name], entry) ∈ files.entries := by
  rw [names, List.mem_mergeSort, List.mem_filterMap]
  constructor
  · rintro ⟨⟨location, entry⟩, inFiles, isName⟩
    cases nameIn?_eq_some_iff.mp isName
    exact ⟨entry, inFiles⟩
  · rintro ⟨entry, inFiles⟩
    exact ⟨_, inFiles, nameIn?_eq_some_iff.mpr rfl⟩

theorem isSome_entry?_iff {directory : Location} {name : String} :
    (files.entry? (directory ++ [name])).isSome = true ↔ name ∈ files.names directory := by
  rw [mem_names_iff, entry?, if_neg (by simp), List.lookup_isSome_iff]
  constructor
  · rintro ⟨⟨location, entry⟩, inFiles, isLocation⟩
    cases beq_iff_eq.mp isLocation
    exact ⟨entry, inFiles⟩
  · rintro ⟨entry, inFiles⟩
    exact ⟨_, inFiles, beq_self_eq_true _⟩

theorem pairwise_names (directory : Location) :
    (files.names directory).Pairwise fun first second => first ≤ second := by
  have sorted := @List.pairwise_mergeSort String (fun first second => decide (first ≤ second))
    (by simpa using fun _ _ _ => String.le_trans) (by simpa using String.le_total)
    (files.entries.filterMap fun entry => nameIn? directory entry.1)
  simpa [names] using sorted

theorem WellFormed.nodup_names (wellFormed : files.WellFormed) (directory : Location) :
    (files.names directory).Nodup := by
  have unsorted : ((files.entries.map Prod.fst).filterMap (nameIn? directory)).Nodup := by
    refine List.Nodup.filterMap (fun first second name isFirst isSecond => ?_) wellFormed.once
    rw [nameIn?_eq_some_iff.mp isFirst, nameIn?_eq_some_iff.mp isSecond]
  rw [List.filterMap_map] at unsorted
  exact (List.mergeSort_perm _ _).nodup_iff.mpr unsorted

theorem WellFormed.fileName
    (wellFormed : files.WellFormed)
    {directory : Location}
    {name : String}
    (isName : name ∈ files.names directory) :
    FileName name := by
  rcases mem_names_iff.mp isName with ⟨entry, inFiles⟩
  exact wellFormed.fileNames _ inFiles name (List.mem_append_right _ (List.mem_singleton_self name))

theorem length_le_depth
    {entry : Location × Entry}
    (inFiles : entry ∈ files.entries) :
    entry.1.length ≤ files.depth := by
  have deepest (entries : List (Location × Entry)) (bound : Nat) :
      bound ≤ entries.foldl (fun depth entry => max depth entry.1.length) bound ∧
        ∀ entry ∈ entries,
          entry.1.length ≤ entries.foldl (fun depth entry => max depth entry.1.length) bound := by
    induction entries generalizing bound with
    | nil => exact ⟨Nat.le_refl bound, nofun⟩
    | cons first rest induction =>
        rcases induction (max bound first.1.length) with ⟨least, others⟩
        refine ⟨(Nat.le_max_left _ _).trans least, List.forall_mem_cons.mpr ⟨?_, others⟩⟩
        exact (Nat.le_max_right _ _).trans least
  exact (deepest files.entries 0).2 entry inFiles

/-- A directory with names in it is not one of the deepest. -/
theorem length_lt_depth
    {directory : Location}
    {name : String}
    (isName : name ∈ files.names directory) :
    directory.length < files.depth := by
  rcases mem_names_iff.mp isName with ⟨entry, inFiles⟩
  have deep := length_le_depth inFiles
  rw [List.length_append, List.length_singleton] at deep
  omega

/-! ### Paths with further pieces -/

theorem zeroFree_extend_iff {base : Path} {pieces : List String} :
    ZeroFree (base.extend pieces).pieces ↔ ZeroFree base.pieces ∧ ZeroFree pieces := by
  rw [Path.extend]
  split
  · rename_i isNil
    rw [isNil, and_iff_left]
    exact List.forall_mem_nil _
  · exact List.forall_mem_append.trans (and_congr_left' zeroFree_openPieces_iff)

/-- A path with the same moves enters the same directory. -/
theorem Enters.congr
    {base other : Path}
    {directory : Location}
    (enters : files.Enters current base directory)
    (sameRooted : other.rooted = base.rooted)
    (sameMoves : moves other.pieces = moves base.pieces)
    (zeroFree : ZeroFree other.pieces) :
    files.Enters current other directory := by
  have sameStart : startOf current other = startOf current base := by
    rw [startOf, startOf, sameRooted]
  refine ⟨zeroFree, ?_, ?_⟩
  · rw [sameStart]
    exact enters.isStart
  · rw [sameStart, sameMoves]
    exact enters.entered

/-- A path that goes on enters a directory before it does. -/
theorem Enters.of_extend
    {base : Path}
    {pieces : List String}
    {directory : Location}
    (enters : files.Enters current (base.extend pieces) directory) :
    ∃ above, files.Enters current base above := by
  have sameStart : startOf current (base.extend pieces) = startOf current base := by
    rw [startOf, startOf, Path.rooted_extend]
  have entered := enters.entered
  rw [Path.moves_extend, List.foldlM_append] at entered
  rcases Option.bind_eq_some_iff.mp entered with ⟨above, enteredAbove, -⟩
  rw [sameStart] at enteredAbove
  exact ⟨above, (zeroFree_extend_iff.mp enters.zeroFree).1, sameStart ▸ enters.isStart,
    enteredAbove⟩

theorem Enters.find?
    {base : Path}
    {directory : Location}
    (enters : files.Enters current base directory)
    (notEmpty : base ≠ Path.empty) :
    files.find? current base = some (directory, .directory) :=
  find?_eq_directory_iff.mpr ⟨enters.zeroFree, notEmpty, enters.isStart, enters.entered⟩

/-! ### A directory to look from -/

/-- A directory of a file system, and a path to it behind which further pieces can be put. -/
structure Standpoint where
  files : FileSystem
  current : Location
  base : Path
  location : Location
  wellFormed : files.WellFormed
  anchored : base.Anchored
  leads : files.find? current base = some (location, .directory)

variable {first second : Standpoint}

namespace Standpoint

/-- The path of pieces seen from the directory. -/
def path (standpoint : Standpoint) (pieces : List String) : Path :=
  standpoint.base.extend pieces

theorem anchored_path (standpoint : Standpoint) (pieces : List String) :
    (standpoint.path pieces).Anchored :=
  standpoint.anchored.extend pieces

theorem resolve_path
    (standpoint : Standpoint)
    {pieces : List String}
    (zeroFree : ZeroFree pieces) :
    standpoint.files.resolve standpoint.current (standpoint.path pieces) =
      pieces.foldlM standpoint.files.follow (.existing standpoint.location .directory) := by
  by_cases isNil : pieces = []
  · rw [isNil, path, Path.extend_nil]
    exact resolve_of_find? standpoint.leads
  · have enters := enters_of_find? standpoint.leads
    have isStart := enters.isStart
    have walked :
        (Path.openPieces standpoint.base.pieces).foldlM standpoint.files.follow
            (.existing (startOf standpoint.current standpoint.base) .directory) =
          .ok (.existing standpoint.location .directory) := by
      rw [foldlM_follow_eq_directory_iff, Path.moves_openPieces]
      exact enters.entered
    have noZero := zeroFree_extend_iff.mpr ⟨enters.zeroFree, zeroFree⟩
    rw [Path.extend_of_ne_nil isNil] at noZero
    rw [path, Path.extend_of_ne_nil isNil, resolve, if_neg, if_neg]
    · rw [startOf] at isStart walked
      dsimp only
      rw [isStart]
      dsimp only
      rw [List.foldlM_append, walked]
      rfl
    · intro isEmpty
      exact List.append_ne_nil_of_right_ne_nil _ isNil (congrArg Path.pieces isEmpty)
    · rw [contains_zero_iff, not_not]
      exact noZero

theorem zeroFree_of_find?
    {standpoint : Standpoint}
    {pieces : List String}
    {place : Location × Entry}
    (found : standpoint.files.find? standpoint.current (standpoint.path pieces) = some place) :
    ZeroFree pieces := by
  have resolved := resolve_of_find? found
  rw [resolve] at resolved
  split at resolved
  · cases resolved
  · rename_i noZero
    rw [contains_zero_iff, not_not] at noZero
    exact (zeroFree_extend_iff.mp noZero).2

end Standpoint

/-! ### The same below two directories -/

/-- Whether the same names lead to files and to directories below two directories. -/
def SameView (first second : Standpoint) : Prop :=
  ∀ below,
    (first.files.entry? (first.location ++ below)).map Entry.isDirectory =
      (second.files.entry? (second.location ++ below)).map Entry.isDirectory

theorem SameView.symm (view : SameView first second) : SameView second first :=
  fun below => (view below).symm

/-- Whether two places lie in the same way below two locations. -/
inductive Place.Alike (first second : Location) : Place → Place → Prop
  | existing (below : Location) {entry other : Entry}
      (same : entry.isDirectory = other.isDirectory) :
      Alike first second (.existing (first ++ below) entry) (.existing (second ++ below) other)
  | absent (below : Location) (name : String) :
      Alike first second (.absent (first ++ below) name) (.absent (second ++ below) name)

theorem Place.Alike.here (first second : Location) :
    Alike first second (.existing first .directory) (.existing second .directory) := by
  have atEnd : Alike first second (.existing (first ++ []) .directory)
      (.existing (second ++ []) .directory) := .existing [] rfl
  rw [List.append_nil, List.append_nil] at atEnd
  exact atEnd

theorem SameView.placeIn (view : SameView first second) (below : Location) (name : String) :
    Place.Alike first.location second.location
      (first.files.placeIn (first.location ++ below) name)
      (second.files.placeIn (second.location ++ below) name) := by
  have same := view (below ++ [name])
  rw [FileSystem.placeIn, FileSystem.placeIn, List.append_assoc, List.append_assoc]
  cases isFirst : first.files.entry? (first.location ++ (below ++ [name])) <;>
    cases isSecond : second.files.entry? (second.location ++ (below ++ [name])) <;>
    rw [isFirst, isSecond] at same
  · exact .absent below name
  · cases same
  · cases same
  · exact .existing _ (Option.some.inj same)

theorem SameView.follow
    (view : SameView first second)
    {piece : String}
    (notUp : piece ≠ "..")
    {place other next : Place}
    (alike : Place.Alike first.location second.location place other)
    (followed : first.files.follow place piece = .ok next) :
    ∃ otherNext, second.files.follow other piece = .ok otherNext ∧
      Place.Alike first.location second.location next otherNext := by
  cases alike with
  | absent below name =>
      rw [FileSystem.follow] at followed ⊢
      split at followed
      · rename_i isEmpty
        cases followed
        exact ⟨_, if_pos isEmpty, .absent below name⟩
      · cases followed
  | @existing below entry other same =>
      cases entry with
      | file => cases followed
      | directory =>
          cases other with
          | file => cases same
          | directory =>
              rcases Path.component?_cases piece with ⟨-, idle⟩ | ⟨isUp, -⟩ | ⟨-, -, -, plain⟩
              · rw [follow_of_idle idle] at followed ⊢
                cases followed
                exact ⟨_, rfl, .existing below rfl⟩
              · exact (notUp isUp).elim
              · rcases (follow_name_iff plain).mp followed with ⟨short, _, ⟨⟩, rfl⟩
                exact ⟨_, (follow_name_iff plain).mpr ⟨short, _, rfl, rfl⟩,
                  view.placeIn below piece⟩

theorem SameView.foldlM_follow
    (view : SameView first second)
    {pieces : List String}
    (noUp : ".." ∉ pieces)
    {place other last : Place}
    (alike : Place.Alike first.location second.location place other)
    (walked : pieces.foldlM first.files.follow place = .ok last) :
    ∃ otherLast, pieces.foldlM second.files.follow other = .ok otherLast ∧
      Place.Alike first.location second.location last otherLast := by
  induction pieces generalizing place other with
  | nil =>
      cases walked
      exact ⟨other, rfl, alike⟩
  | cons piece pieces induction =>
      rcases not_or.mp (mt List.mem_cons.mpr noUp) with ⟨notUp, noUp⟩
      rw [List.foldlM_cons, bind_eq_ok_iff] at walked
      rcases walked with ⟨next, followed, walked⟩
      rcases view.follow (Ne.symm notUp) alike followed with ⟨otherNext, otherFollowed, nextAlike⟩
      rcases induction noUp nextAlike walked with ⟨otherLast, otherWalked, lastAlike⟩
      refine ⟨otherLast, ?_, lastAlike⟩
      rw [List.foldlM_cons, otherFollowed]
      exact otherWalked

/-- What is found from the one directory is found from the other, at the same place below. -/
theorem SameView.find?
    (view : SameView first second)
    {pieces : List String}
    (noUp : ".." ∉ pieces)
    {location : Location}
    {entry : Entry}
    (found : first.files.find? first.current (first.path pieces) = some (location, entry)) :
    ∃ below other, location = first.location ++ below ∧
      second.files.find? second.current (second.path pieces) =
        some (second.location ++ below, other) ∧
      entry.isDirectory = other.isDirectory := by
  have zeroFree := Standpoint.zeroFree_of_find? found
  have walked := resolve_of_find? found
  rw [first.resolve_path zeroFree] at walked
  rcases view.foldlM_follow noUp (.here _ _) walked with ⟨_, otherWalked, alike⟩
  rw [← second.resolve_path zeroFree] at otherWalked
  cases alike with
  | existing below same => exact ⟨below, _, rfl, find?_of_resolve otherWalked, same⟩

/-- Whether a path leads to a directory, if it leads to something. -/
def leadsToDirectory? (files : FileSystem) (current : Location) (path : Path) : Option Bool :=
  (files.find? current path).map fun found => found.2.isDirectory

theorem SameView.leadsToDirectory?
    (view : SameView first second)
    {pieces : List String}
    (noUp : ".." ∉ pieces) :
    first.files.leadsToDirectory? first.current (first.path pieces) =
      second.files.leadsToDirectory? second.current (second.path pieces) := by
  refine Option.ext fun kind => ?_
  have transfers
      {first second : Standpoint}
      (view : SameView first second)
      (leads : first.files.leadsToDirectory? first.current (first.path pieces) = some kind) :
      second.files.leadsToDirectory? second.current (second.path pieces) = some kind := by
    rcases Option.map_eq_some_iff.mp leads with ⟨⟨location, entry⟩, found, rfl⟩
    rcases view.find? noUp found with ⟨below, other, -, isOther, same⟩
    rw [FileSystem.leadsToDirectory?, isOther]
    exact congrArg some same.symm
  exact ⟨transfers view, transfers view.symm⟩

theorem isFile_eq (path : Path) :
    files.isFile current path = (files.leadsToDirectory? current path == some false) := by
  rw [isFile, leadsToDirectory?]
  rcases files.find? current path with _ | ⟨location, _ | _⟩ <;> rfl

theorem isDirectory_eq (path : Path) :
    files.isDirectory current path = (files.leadsToDirectory? current path == some true) := by
  rw [isDirectory, leadsToDirectory?]
  rcases files.find? current path with _ | ⟨location, _ | _⟩ <;> rfl

theorem exists?_eq (path : Path) :
    files.exists? current path = (files.leadsToDirectory? current path).isSome := by
  rw [exists?, leadsToDirectory?, Option.isSome_map]

theorem SameView.isFile
    (view : SameView first second)
    {pieces : List String}
    (noUp : ".." ∉ pieces) :
    first.files.isFile first.current (first.path pieces) =
      second.files.isFile second.current (second.path pieces) := by
  rw [isFile_eq, isFile_eq, view.leadsToDirectory? noUp]

theorem SameView.isDirectory
    (view : SameView first second)
    {pieces : List String}
    (noUp : ".." ∉ pieces) :
    first.files.isDirectory first.current (first.path pieces) =
      second.files.isDirectory second.current (second.path pieces) := by
  rw [isDirectory_eq, isDirectory_eq, view.leadsToDirectory? noUp]

theorem SameView.exists?
    (view : SameView first second)
    {pieces : List String}
    (noUp : ".." ∉ pieces) :
    first.files.exists? first.current (first.path pieces) =
      second.files.exists? second.current (second.path pieces) := by
  rw [exists?_eq, exists?_eq, view.leadsToDirectory? noUp]

/-! ### The names seen from two directories -/

theorem SameView.names (view : SameView first second) (below : Location) :
    first.files.names (first.location ++ below) =
      second.files.names (second.location ++ below) := by
  have sameMembers (name : String) :
      name ∈ first.files.names (first.location ++ below) ↔
        name ∈ second.files.names (second.location ++ below) := by
    have same := congrArg Option.isSome (view (below ++ [name]))
    rw [Option.isSome_map, Option.isSome_map, ← List.append_assoc, ← List.append_assoc] at same
    rw [← isSome_entry?_iff, ← isSome_entry?_iff, same]
  have reordered : (first.files.names (first.location ++ below)).Perm
      (second.files.names (second.location ++ below)) :=
    (List.perm_ext_iff_of_nodup (first.wellFormed.nodup_names _)
      (second.wellFormed.nodup_names _)).mpr sameMembers
  exact reordered.eq_of_pairwise (fun _ _ _ _ => String.le_antisymm) (pairwise_names _)
    (pairwise_names _)

/-- The directories to which the same path leads list the same names. -/
theorem SameView.namesIn
    (view : SameView first second)
    {pieces : List String}
    (noUp : ".." ∉ pieces) :
    Glob.namesIn first.files first.current (first.path pieces) =
      Glob.namesIn second.files second.current (second.path pieces) := by
  have sameKind := view.leadsToDirectory? noUp
  rw [Glob.namesIn, Glob.namesIn]
  cases found : first.files.find? first.current (first.path pieces) with
  | none =>
      rw [FileSystem.leadsToDirectory?, found, FileSystem.leadsToDirectory?, Option.map_none,
        eq_comm, Option.map_eq_none_iff] at sameKind
      rw [sameKind]
  | some place =>
      rcases place with ⟨location, entry⟩
      rcases view.find? noUp found with ⟨below, other, rfl, isOther, same⟩
      rw [isOther]
      cases entry <;> cases other
      · exact view.names below
      · cases same
      · cases same
      · rfl

end FileSystem

end Concordance
