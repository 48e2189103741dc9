import Concordance.FileSystem.Basic
import Concordance.Proofs.Failure
import Concordance.Proofs.Path.Ancestors

/-!
# Where paths lead

A path leads to a directory exactly if each of its moves leads from one
directory to another (`find?_eq_directory_iff`), so two ways of writing the same
moves lead to the same place.  In particular a path that leads to a directory
does so when it is made absolute (`find?_absolute?`), and so do its ancestors
(`exists_find?_of_mem_ancestors`).  A name put behind a path leads into the
directory to which the path leads (`resolve_joinText_iff`).
-/

namespace Concordance

open Concordance.Path (Component moves component?)

/-- Where a move points to, seen from a location. -/
def Path.Component.seenFrom (location : Location) : Component → Location
  | .root => []
  | .current => location
  | .parent => location.dropLast
  | .name text => location ++ [text]

namespace FileSystem

variable {files : FileSystem} {current : Location}

/-! ### Moves between directories -/

/-- Where a move leads from a directory, if it leads to a directory. -/
def enter? (files : FileSystem) (location : Location) (move : Component) : Option Location :=
  match move with
  | .name name =>
      if name.utf8ByteSize ≤ nameLimit ∧
          files.entry? (location ++ [name]) = some .directory then
        some (location ++ [name])
      else none
  | move => some (move.seenFrom location)

theorem eq_seenFrom_of_enter?
    {location next : Location}
    {move : Component}
    (entered : files.enter? location move = some next) :
    next = move.seenFrom location := by
  cases move with
  | name name =>
      rw [enter?] at entered
      split at entered
      · exact (Option.some.inj entered).symm
      · cases entered
  | root | current | parent => exact (Option.some.inj entered).symm

/-- Moves that lead to a directory lead where they point to. -/
theorem eq_foldl_of_foldlM_enter?
    {start location : Location}
    {path : List Component}
    (entered : path.foldlM files.enter? start = some location) :
    location = path.foldl Component.seenFrom start := by
  induction path generalizing start with
  | nil => exact (Option.some.inj entered).symm
  | cons move path induction =>
      rw [List.foldlM_cons] at entered
      rcases Option.bind_eq_some_iff.mp entered with ⟨next, here, entered⟩
      rw [List.foldl_cons, ← eq_seenFrom_of_enter? here]
      exact induction entered

theorem follow_of_idle
    {piece : String}
    (idle : component? false piece = none)
    (location : Location) :
    files.follow (.existing location .directory) piece =
      .ok (.existing location .directory) := by
  rcases Path.component?_cases piece with ⟨still, -⟩ | ⟨-, up⟩ | ⟨-, -, -, down⟩
  · rw [follow, if_pos still]
  · rw [idle] at up
    cases up
  · rw [idle] at down
    cases down

/-- A move leads to a directory exactly if following its piece does. -/
theorem follow_eq_directory_iff
    {piece : String}
    {move : Component}
    (moving : component? false piece = some move)
    {location next : Location} :
    files.follow (.existing location .directory) piece = .ok (.existing next .directory) ↔
      files.enter? location move = some next := by
  rcases Path.component?_cases piece with
    ⟨-, idle⟩ | ⟨rfl, up⟩ | ⟨notEmpty, notDot, notUp, down⟩
  · rw [idle] at moving
    cases moving
  · cases moving.symm.trans up
    rw [follow, if_neg (by decide), if_pos rfl, enter?, Component.seenFrom] <;> simp
  · cases moving.symm.trans down
    rw [follow, if_neg (not_or.mpr ⟨notEmpty, notDot⟩), if_neg notUp, enter?]
    by_cases long : nameLimit < piece.utf8ByteSize
    · simp [long, Nat.not_le.mpr long]
    · cases found : files.entry? (location ++ [piece]) with
      | none => simp [long]
      | some entry =>
          cases entry <;> simp [long, Nat.le_of_not_lt long]

/-- A walk that ends in a directory has started from one. -/
theorem eq_directory_of_foldlM_follow
    {place : Place}
    {pieces : List String}
    {location : Location}
    (walked : pieces.foldlM files.follow place = .ok (.existing location .directory)) :
    ∃ start, place = .existing start .directory := by
  induction pieces generalizing place with
  | nil => exact ⟨location, Except.ok.inj walked⟩
  | cons piece pieces induction =>
      rw [List.foldlM_cons, bind_eq_ok_iff] at walked
      rcases walked with ⟨next, here, walked⟩
      rcases induction walked with ⟨start, rfl⟩
      cases place with
      | existing location entry =>
          cases entry with
          | directory => exact ⟨location, rfl⟩
          | file => cases here
      | absent directory name =>
          rw [follow] at here
          split at here <;> cases here

theorem foldlM_follow_eq_directory_iff
    {start location : Location}
    {pieces : List String} :
    pieces.foldlM files.follow (.existing start .directory) =
        .ok (.existing location .directory) ↔
      (moves pieces).foldlM files.enter? start = some location := by
  induction pieces generalizing start with
  | nil =>
      change Except.ok _ = Except.ok _ ↔ some _ = some _
      simp
  | cons piece pieces induction =>
      cases found : component? false piece with
      | none =>
          rw [Path.moves_cons_of_none found, List.foldlM_cons, follow_of_idle found]
          exact induction
      | some move =>
          rw [Path.moves_cons_of_some found, List.foldlM_cons, List.foldlM_cons,
            bind_eq_ok_iff, Option.bind_eq_bind, Option.bind_eq_some_iff]
          constructor
          · rintro ⟨next, here, walked⟩
            rcases eq_directory_of_foldlM_follow walked with ⟨entered, rfl⟩
            exact ⟨entered, (follow_eq_directory_iff found).mp here, induction.mp walked⟩
          · rintro ⟨entered, here, walked⟩
            exact ⟨_, (follow_eq_directory_iff found).mpr here, induction.mpr walked⟩

/-! ### Paths to directories -/

/-- Whether the character zero, which the operating system refuses, stands nowhere in pieces. -/
def ZeroFree (pieces : List String) : Prop :=
  ∀ piece ∈ pieces, '\x00' ∉ piece.toList

theorem zeroFree_cons {piece : String} {pieces : List String} :
    ZeroFree (piece :: pieces) ↔ '\x00' ∉ piece.toList ∧ ZeroFree pieces :=
  List.forall_mem_cons

theorem contains_zero_iff {path : Path} :
    path.text.toList.contains '\x00' = true ↔ ¬ ZeroFree path.pieces := by
  have inPieces (pieces : List String) :
      '\x00' ∈ ("/".intercalate pieces).toList ↔ ¬ ZeroFree pieces := by
    induction pieces with
    | nil => simp [ZeroFree]
    | cons first rest induction =>
        rw [zeroFree_cons, not_and_or, not_not, ← induction]
        cases rest with
        | nil => simp
        | cons second rest =>
            rw [String.intercalate_cons_cons, String.toList_append, String.toList_append,
              List.mem_append, List.mem_append]
            simp
  rw [List.contains_iff_mem, ← inPieces, Path.text, String.toList_append, List.mem_append]
  split <;> simp

/-- Where a path starts from. -/
def startOf (current : Location) (path : Path) : Location :=
  if path.rooted then [] else current

theorem find?_eq_directory_iff {path : Path} {location : Location} :
    files.find? current path = some (location, .directory) ↔
      ZeroFree path.pieces ∧ path ≠ Path.empty ∧
        files.entry? (startOf current path) = some .directory ∧
        (moves path.pieces).foldlM files.enter? (startOf current path) = some location := by
  have found_iff : files.find? current path = some (location, .directory) ↔
      files.resolve current path = .ok (.existing location .directory) := by
    rw [find?]
    split
    · rename_i resolved
      rw [resolved]
      simp
    · rename_i other
      constructor
      · exact nofun
      · intro resolved
        exact (other _ _ resolved).elim
  rw [found_iff, resolve]
  split
  · rename_i zero
    rw [contains_zero_iff] at zero
    simp [zero]
  · rename_i noZero
    rw [contains_zero_iff, not_not] at noZero
    split
    · rename_i isEmpty
      simp [isEmpty]
    · rename_i notEmpty
      unfold startOf
      dsimp only
      cases files.entry? (if path.rooted then [] else current) with
      | none => simp
      | some entry =>
          cases entry with
          | directory => simp [noZero, notEmpty, foldlM_follow_eq_directory_iff]
          | file content executable =>
              constructor
              · intro walked
                rcases eq_directory_of_foldlM_follow walked with ⟨start, ⟨⟩⟩
              · rintro ⟨-, -, ⟨⟩, -⟩

theorem find?_eq_directory_iff_of_rooted {pieces : List String} {location : Location} :
    files.find? current ⟨true, pieces⟩ = some (location, .directory) ↔
      ZeroFree pieces ∧ (moves pieces).foldlM files.enter? [] = some location := by
  rw [find?_eq_directory_iff]
  constructor
  · rintro ⟨zeroFree, -, -, entered⟩
    exact ⟨zeroFree, entered⟩
  · rintro ⟨zeroFree, entered⟩
    exact ⟨zeroFree, nofun, rfl, entered⟩

/-- A path from the root leads to a directory where its components point to. -/
theorem eq_foldl_components_of_find?
    {pieces : List String}
    {location : Location}
    (found : files.find? current ⟨true, pieces⟩ = some (location, .directory)) :
    location = (Path.components ⟨true, pieces⟩).foldl Component.seenFrom [] := by
  rw [Path.components_of_rooted, List.foldl_cons]
  exact eq_foldl_of_foldlM_enter? (find?_eq_directory_iff_of_rooted.mp found).2

/-- Made absolute, a path leads to the same directory. -/
theorem find?_absolute?
    (here : files.find? [] ⟨true, current⟩ = some (current, .directory))
    {path absolute : Path}
    {location : Location}
    (there : files.find? current path = some (location, .directory))
    (found : Path.absolute? ⟨true, current⟩ path = some absolute) :
    files.find? current absolute = some (location, .directory) := by
  rcases find?_eq_directory_iff_of_rooted.mp here with ⟨zeroFreeHere, enteredHere⟩
  rcases find?_eq_directory_iff.mp there with ⟨zeroFree, -, -, entered⟩
  rcases Path.moves_absolute? found with ⟨pieces, rfl, sameMoves, known⟩
  refine find?_eq_directory_iff_of_rooted.mpr ⟨?_, ?_⟩
  · intro piece inPieces
    rcases known piece inPieces with rfl | ⟨-, inCurrent⟩ | inPath
    · simp
    · exact zeroFreeHere piece inCurrent
    · exact zeroFree piece inPath
  · rw [sameMoves, Path.movesFrom]
    unfold startOf at entered
    split
    · rename_i rooted
      rw [if_pos rooted] at entered
      exact entered
    · rename_i relative
      rw [if_neg relative] at entered
      rw [List.foldlM_append, enteredHere]
      exact entered

/-- The parent of a path to a directory leads to a directory. -/
theorem exists_find?_parent
    {pieces parent : List String}
    (isParent : Path.parentPieces? false pieces = some parent)
    {location : Location}
    (found : files.find? current ⟨true, pieces⟩ = some (location, .directory)) :
    ∃ above, files.find? current ⟨true, parent⟩ = some (above, .directory) := by
  rcases find?_eq_directory_iff_of_rooted.mp found with ⟨zeroFree, entered⟩
  rcases Path.parentPieces?_eq_some isParent with
    ⟨kept, piece, move, idle, rfl, -, -, rfl⟩
  rw [Path.moves_append, List.foldlM_append] at entered
  rcases Option.bind_eq_some_iff.mp entered with ⟨above, enteredAbove, -⟩
  refine ⟨above, find?_eq_directory_iff_of_rooted.mpr ⟨?_, ?_⟩⟩
  · intro other inParent
    rcases Path.trimPieces_prefix kept with ⟨silent, cut, -⟩
    refine zeroFree other ?_
    rw [cut]
    simp [inParent]
  · rw [Path.moves_trimPieces]
    exact enteredAbove

/-- All ancestors of a path to a directory lead to directories. -/
theorem exists_find?_of_mem_ancestors
    {pieces : List String}
    {location : Location}
    (found : files.find? current ⟨true, pieces⟩ = some (location, .directory))
    {ancestor : Path}
    (isAncestor : ancestor ∈ Path.ancestors ⟨true, pieces⟩) :
    ∃ above, files.find? current ancestor = some (above, .directory) := by
  induction pieces using Path.induction_parent generalizing location with
  | top pieces none =>
      rw [Path.ancestors_eq_of_none none, List.mem_singleton] at isAncestor
      exact ⟨location, isAncestor ▸ found⟩
  | below pieces parent isParent induction =>
      rw [Path.ancestors_eq_of_some isParent, List.mem_cons] at isAncestor
      rcases isAncestor with rfl | higher
      · exact ⟨location, found⟩
      · rcases exists_find?_parent isParent found with ⟨above, foundAbove⟩
        exact induction foundAbove higher

/-! ### Names in a directory -/

/-- A piece of a path that can name something in a directory: neither too long nor refused. -/
structure PlainName (name : String) : Prop where
  plain : component? false name = some (.name name)
  zeroFree : '\x00' ∉ name.toList
  short : name.utf8ByteSize ≤ nameLimit

/-- A text that can be the name of a file: one piece of a path, neither too long nor refused. -/
structure FileName (name : String) : Prop where
  isPath : Path.ofText name = ⟨false, [name]⟩
  plain : component? false name = some (.name name)
  zeroFree : '\x00' ∉ name.toList
  short : name.utf8ByteSize ≤ nameLimit

instance (name : String) : Decidable (FileName name) :=
  decidable_of_iff
    (Path.ofText name = ⟨false, [name]⟩ ∧ component? false name = some (.name name) ∧
      '\x00' ∉ name.toList ∧ name.utf8ByteSize ≤ nameLimit)
    ⟨fun ⟨isPath, plain, zeroFree, short⟩ => ⟨isPath, plain, zeroFree, short⟩,
      fun isName => ⟨isName.isPath, isName.plain, isName.zeroFree, isName.short⟩⟩

theorem FileName.plainName {name : String} (isName : FileName name) : PlainName name :=
  ⟨isName.plain, isName.zeroFree, isName.short⟩

/-- Where a name leads from a directory. -/
def placeIn (files : FileSystem) (directory : Location) (name : String) : Place :=
  match files.entry? (directory ++ [name]) with
  | some entry => .existing (directory ++ [name]) entry
  | none => .absent directory name

/-- A name is followed only from a directory, and if it is not too long. -/
theorem follow_name_iff
    {name : String}
    (plain : component? false name = some (.name name))
    {place next : Place} :
    files.follow place name = .ok next ↔
      name.utf8ByteSize ≤ nameLimit ∧
        ∃ directory, place = .existing directory .directory ∧
          next = files.placeIn directory name := by
  rcases Path.component?_cases name with
    ⟨-, idle⟩ | ⟨-, up⟩ | ⟨notEmpty, notDot, notUp, -⟩
  · rw [plain] at idle
    cases idle
  · rw [plain] at up
    cases up
  · have fromDirectory (directory : Location) :
        files.follow (.existing directory .directory) name =
          if name.utf8ByteSize ≤ nameLimit then .ok (files.placeIn directory name)
          else .error .nameTooLong := by
      rw [follow, if_neg (not_or.mpr ⟨notEmpty, notDot⟩), if_neg notUp, placeIn]
      by_cases short : name.utf8ByteSize ≤ nameLimit
      · rw [if_neg (Nat.not_lt.mpr short), if_pos short]
        cases files.entry? (directory ++ [name]) <;> rfl
      · rw [if_pos (Nat.lt_of_not_le short), if_neg short]
    constructor
    · intro followed
      cases place with
      | absent directory other =>
          rw [follow, if_neg notEmpty] at followed
          cases followed
      | existing directory entry =>
          cases entry with
          | file => cases followed
          | directory =>
              rw [fromDirectory] at followed
              split at followed
              · rename_i short
                exact ⟨short, directory, rfl, (Except.ok.inj followed).symm⟩
              · cases followed
    · rintro ⟨short, directory, rfl, rfl⟩
      rw [fromDirectory, if_pos short]

/-- Whether a path leads into a directory; the empty path leads into the current one. -/
structure Enters
    (files : FileSystem)
    (current : Location)
    (base : Path)
    (directory : Location) : Prop where
  zeroFree : ZeroFree base.pieces
  isStart : files.entry? (startOf current base) = some .directory
  entered : (moves base.pieces).foldlM files.enter? (startOf current base) = some directory

theorem enters_of_find?
    {base : Path}
    {directory : Location}
    (found : files.find? current base = some (directory, .directory)) :
    files.Enters current base directory := by
  rcases find?_eq_directory_iff.mp found with ⟨zeroFree, -, isStart, entered⟩
  exact ⟨zeroFree, isStart, entered⟩

theorem Enters.unique
    {base : Path}
    {first second : Location}
    (isFirst : files.Enters current base first)
    (isSecond : files.Enters current base second) :
    first = second :=
  Option.some.inj (isFirst.entered.symm.trans isSecond.entered)

theorem zeroFree_openPieces_iff {pieces : List String} :
    ZeroFree (Path.openPieces pieces) ↔ ZeroFree pieces := by
  rw [Path.openPieces]
  split
  · rename_i last
    rcases List.getLast?_eq_some_iff.mp last with ⟨front, rfl⟩
    rw [List.dropLast_concat, ZeroFree, ZeroFree, List.forall_mem_append,
      List.forall_mem_singleton]
    exact (and_iff_left (by simp)).symm
  · rfl

/-- Room for further pieces does not change where a path leads. -/
theorem enters_openPieces_iff {base : Path} {directory : Location} :
    files.Enters current ⟨base.rooted, Path.openPieces base.pieces⟩ directory ↔
      files.Enters current base directory := by
  constructor
  · rintro ⟨zeroFree, isStart, entered⟩
    rw [Path.moves_openPieces] at entered
    exact ⟨zeroFree_openPieces_iff.mp zeroFree, isStart, entered⟩
  · rintro ⟨zeroFree, isStart, entered⟩
    rw [← Path.moves_openPieces] at entered
    exact ⟨zeroFree_openPieces_iff.mpr zeroFree, isStart, entered⟩

/-- A path that ends in a name leads to that name in the directory that its other pieces enter. -/
theorem resolve_append_name_iff
    {rooted : Bool}
    {pieces : List String}
    {name : String}
    (plain : component? false name = some (.name name))
    {place : Place} :
    files.resolve current ⟨rooted, pieces ++ [name]⟩ = .ok place ↔
      PlainName name ∧ ∃ directory, files.Enters current ⟨rooted, pieces⟩ directory ∧
        place = files.placeIn directory name := by
  have zeroFree_iff : ZeroFree (pieces ++ [name]) ↔ ZeroFree pieces ∧ '\x00' ∉ name.toList := by
    rw [ZeroFree, List.forall_mem_append, List.forall_mem_singleton]
    rfl
  rw [resolve]
  split
  · rename_i zero
    rw [contains_zero_iff, zeroFree_iff] at zero
    constructor
    · exact nofun
    · rintro ⟨isName, directory, enters, -⟩
      exact (zero ⟨enters.zeroFree, isName.zeroFree⟩).elim
  rename_i noZero
  rw [contains_zero_iff, not_not, zeroFree_iff] at noZero
  rw [if_neg (by simp [Path.empty])]
  change (match files.entry? (startOf current ⟨rooted, pieces⟩) with
    | some entry => (pieces ++ [name]).foldlM files.follow
        (.existing (startOf current ⟨rooted, pieces⟩) entry)
    | none => .error .notFound) = .ok place ↔ _
  constructor
  · intro resolved
    cases isStart : files.entry? (startOf current ⟨rooted, pieces⟩) with
    | none =>
        rw [isStart] at resolved
        cases resolved
    | some entry =>
        rw [isStart] at resolved
        dsimp only at resolved
        rw [List.foldlM_append, bind_eq_ok_iff] at resolved
        rcases resolved with ⟨above, walked, last⟩
        rw [List.foldlM_cons, bind_eq_ok_iff] at last
        rcases last with ⟨_, followed, ⟨⟩⟩
        rcases (follow_name_iff plain).mp followed with ⟨short, directory, rfl, isPlace⟩
        rcases eq_directory_of_foldlM_follow walked with ⟨_, ⟨⟩⟩
        rw [foldlM_follow_eq_directory_iff] at walked
        exact ⟨⟨plain, noZero.2, short⟩, directory, ⟨noZero.1, isStart, walked⟩, isPlace⟩
  · rintro ⟨isName, directory, enters, isPlace⟩
    rw [enters.isStart]
    dsimp only
    rw [List.foldlM_append, bind_eq_ok_iff]
    refine ⟨.existing directory .directory, ?_, ?_⟩
    · rw [foldlM_follow_eq_directory_iff]
      exact enters.entered
    · rw [List.foldlM_cons, bind_eq_ok_iff]
      exact ⟨place, (follow_name_iff plain).mpr ⟨isName.short, directory, rfl, isPlace⟩, rfl⟩

theorem joinText_name
    (base : Path)
    {name : String}
    (isName : FileName name) :
    base.joinText name = ⟨base.rooted, Path.openPieces base.pieces ++ [name]⟩ := by
  rw [Path.joinText, isName.isPath]
  rcases base with ⟨rooted, pieces⟩
  cases pieces <;> rfl

/-- A name put behind a path leads into the directory that the path enters. -/
theorem resolve_joinText_iff
    {base : Path}
    {name : String}
    (isName : FileName name)
    {place : Place} :
    files.resolve current (base.joinText name) = .ok place ↔
      ∃ directory, files.Enters current base directory ∧
        place = files.placeIn directory name := by
  rw [joinText_name base isName, resolve_append_name_iff isName.plain,
    and_iff_right isName.plainName]
  simp only [enters_openPieces_iff]

/-- What is found under a name behind a path lies in the directory to which the path leads. -/
theorem eq_of_find?_joinText
    {base : Path}
    {directory : Location}
    (above : files.find? current base = some (directory, .directory))
    {name : String}
    (isName : FileName name)
    {location : Location}
    {entry : Entry}
    (found : files.find? current (base.joinText name) = some (location, entry)) :
    location = directory ++ [name] := by
  rw [find?] at found
  split at found
  · rename_i resolved
    cases found
    rcases (resolve_joinText_iff isName).mp resolved with ⟨other, enters, isPlace⟩
    rw [(enters_of_find? above).unique enters]
    rw [placeIn] at isPlace
    split at isPlace <;> cases isPlace
    rfl
  · cases found

end FileSystem

end Concordance
