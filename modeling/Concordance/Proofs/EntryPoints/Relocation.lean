import Concordance.Proofs.EntryPoints.Selecting
import Concordance.Proofs.Glob.Relocation

/-!
# Selecting in another place

What is selected does not depend on where a repository lies, as long as the path
to it takes no part in the patterns: it has no wildcards and does not begin with a
dot, and no included pattern leads up (`selectIn_elsewhere`).  A path with a
bracket in it is read as a pattern together with what is included, so that the
repository is not found at all (`not_forall_selectIn_corresponds`).
-/

namespace Concordance

/-- An error without the place at which a pattern is invalid. -/
def EntryPointError.unplaced : EntryPointError → EntryPointError
  | .invalidPattern repository pattern fault =>
      .invalidPattern repository pattern ⟨0, fault.reason⟩
  | error => error

namespace Selection

open Concordance.FileSystem (Standpoint SameView)
open Concordance.Glob (Ground Counterpart Pattern)
open Concordance.Path (componentsLt_append_left)

/-! ### Ascending lists seen from two directories -/

variable {first second : Standpoint}

theorem lt_counterpart
    {one other one' other' : Path}
    (isOne : Counterpart first second one one')
    (isOther : Counterpart first second other other') :
    one.lt other = one'.lt other' := by
  rcases isOne with ⟨pieces, -, rfl, rfl⟩
  rcases isOther with ⟨others, -, rfl, rfl⟩
  rw [Path.lt, Path.lt, Standpoint.path, Standpoint.path, Standpoint.path, Standpoint.path,
    Path.components_extend first.anchored, Path.components_extend first.anchored,
    Path.components_extend second.anchored, Path.components_extend second.anchored,
    componentsLt_append_left, componentsLt_append_left]

theorem same_counterpart
    {one other one' other' : Path}
    (isOne : Counterpart first second one one')
    (isOther : Counterpart first second other other') :
    one.same other = one'.same other' := by
  rcases isOne with ⟨pieces, -, rfl, rfl⟩
  rcases isOther with ⟨others, -, rfl, rfl⟩
  rw [Bool.eq_iff_iff, Path.same_iff, Path.same_iff, Standpoint.path, Standpoint.path,
    Standpoint.path, Standpoint.path, Path.components_extend first.anchored,
    Path.components_extend first.anchored, Path.components_extend second.anchored,
    Path.components_extend second.anchored, List.append_cancel_left_eq,
    List.append_cancel_left_eq]

theorem forall₂_insertPath
    {path other : Path}
    (isPath : Counterpart first second path other)
    {found others : List Path}
    (same : List.Forall₂ (Counterpart first second) found others) :
    List.Forall₂ (Counterpart first second) (insertPath path found)
      (insertPath other others) := by
  induction same with
  | nil => exact .cons isPath .nil
  | cons head tail induction =>
      rw [insertPath, insertPath, lt_counterpart isPath head, same_counterpart isPath head]
      split
      · exact .cons isPath (.cons head tail)
      split
      · exact .cons head tail
      · exact .cons head induction

theorem forall₂_insertPaths
    {paths otherPaths : List Path}
    (samePaths : List.Forall₂ (Counterpart first second) paths otherPaths)
    {found others : List Path}
    (same : List.Forall₂ (Counterpart first second) found others) :
    List.Forall₂ (Counterpart first second) (insertPaths found paths)
      (insertPaths others otherPaths) := by
  induction samePaths generalizing found others with
  | nil => exact same
  | cons head _ induction => exact induction (forall₂_insertPath head same)

/-! ### One pattern -/

/-- Whether a piece of a pattern stands for the directory above. -/
def LeadsUp (piece : String) : Prop :=
  ∃ pattern, Pattern.ofText piece = .ok pattern ∧ pattern.Climbs

instance (piece : String) : Decidable (LeadsUp piece) :=
  match read : Pattern.ofText piece with
  | .error _ => isFalse (by
      rintro ⟨pattern, isRead, -⟩
      cases read.symm.trans isRead)
  | .ok pattern => decidable_of_iff pattern.Climbs
      ⟨fun climbs => ⟨pattern, read, climbs⟩, by
        rintro ⟨other, isRead, climbs⟩
        cases read.symm.trans isRead
        exact climbs⟩

/-- Whether a pattern is relative, and none of its pieces stands for the directory above. -/
structure StaysBelow (text : String) : Prop where
  relative : (Path.ofText text).rooted = false
  notUp : ∀ piece ∈ (Path.ofText text).pieces, ¬ LeadsUp piece

instance (text : String) : Decidable (StaysBelow text) :=
  decidable_of_iff
    ((Path.ofText text).rooted = false ∧ ∀ piece ∈ (Path.ofText text).pieces, ¬ LeadsUp piece)
    ⟨fun ⟨relative, notUp⟩ => ⟨relative, notUp⟩,
      fun staysBelow => ⟨staysBelow.relative, staysBelow.notUp⟩⟩

/-- Whether errors are the same, up to the place at which a pattern is invalid. -/
def SameError (error other : EntryPointError) : Prop :=
  error.unplaced = other.unplaced

theorem sameError_refl (error : EntryPointError) : SameError error error :=
  rfl

/-- The selection of some patterns where a repository lies. -/
def on (ground : Ground) (repository : String) (included excluded : List String) : Selection :=
  ⟨repository, ground.root, included, excluded⟩

theorem StaysBelow.stays
    {text : String}
    (staysBelow : StaysBelow text)
    (notEmpty : text ≠ "")
    {route : Glob.Route}
    (read : Glob.Route.ofText text = .ok route) :
    ∀ pattern ∈ route.patterns, pattern.Stays := by
  intro pattern inRoute
  rcases Glob.Route.exists_piece notEmpty staysBelow.relative read inRoute with
    ⟨piece, inPieces, readPiece⟩
  refine ⟨fun climbs => staysBelow.notUp piece inPieces ⟨pattern, readPiece, climbs⟩,
    fun name literal => ?_⟩
  rw [Pattern.eq_of_literal? readPiece literal]
  exact (Path.legible_ofText text).slashFree piece inPieces

theorem addPattern_expansion
    (selection : Selection)
    (files : FileSystem)
    (current : Location)
    (isFile : Path → Bool)
    (patterns : List Pattern)
    (found : List Path)
    (text : String) :
    selection.addPattern isFile (Glob.expansion files current) patterns found text =
      match Glob.Route.ofText (selection.root.joinText text).text with
      | .error fault => .error (.invalidPattern selection.repository text fault)
      | .ok route =>
          .ok (insertPaths found
            (selection.kept isFile patterns (route.expand files current))) := by
  rw [addPattern, Glob.expansion]
  cases Glob.Route.ofText (selection.root.joinText text).text with
  | error fault => rfl
  | ok route => exact foldlM_add patterns found (route.expand files current)

section Grounds

variable {ground other : Ground}
variable {repository : String} {included excluded : List String}

theorem relative_path (pieces : List String) :
    (on ground repository included excluded).relative (ground.standpoint.path pieces) =
      Path.restOf pieces := by
  rw [relative, on, ground.stripBase?_path, Option.getD_some]

theorem forall₂_kept
    (view : SameView ground.standpoint other.standpoint)
    (patterns : List Pattern)
    {paths others : List Path}
    (same : List.Forall₂ (Counterpart ground.standpoint other.standpoint) paths others) :
    List.Forall₂ (Counterpart ground.standpoint other.standpoint)
      ((on ground repository included excluded).kept
        (ground.files.isFile ground.current) patterns paths)
      ((on other repository included excluded).kept
        (other.files.isFile other.current) patterns others) := by
  refine List.rel_filter ?_ same
  rintro _ _ ⟨pieces, noUp, rfl, rfl⟩
  have sameFile : ground.files.isFile ground.current (ground.standpoint.path pieces) =
      other.files.isFile other.current (other.standpoint.path pieces) := view.isFile noUp
  have sameExcluded : (on ground repository included excluded).isExcluded patterns
      (ground.standpoint.path pieces) =
        (on other repository included excluded).isExcluded patterns
          (other.standpoint.path pieces) := by
    rw [isExcluded, isExcluded, relative_path, relative_path]
  dsimp only
  rw [sameFile, sameExcluded]

/-- What is wanted as a directory is no file. -/
theorem kept_of_directoriesOnly
    (selection : Selection)
    {files : FileSystem}
    {current : Location}
    {route : Glob.Route}
    (only : route.directoriesOnly = true)
    (patterns : List Pattern) :
    selection.kept (files.isFile current) patterns (route.expand files current) = [] := by
  rw [kept, List.filter_eq_nil_iff]
  intro path expanded
  rw [Glob.Route.expand, only] at expanded
  have isDirectory := (List.mem_filter.mp expanded).2
  rw [FileSystem.isDirectory_eq, beq_iff_eq] at isDirectory
  rw [FileSystem.isFile_eq, isDirectory]
  simp

/-- A pattern that stays below adds the same from two directories that hold the same. -/
theorem corresponds_addPattern
    (view : SameView ground.standpoint other.standpoint)
    {text : String}
    (staysBelow : StaysBelow text)
    (patterns : List Pattern)
    {found others : List Path}
    (same : List.Forall₂ (Counterpart ground.standpoint other.standpoint) found others) :
    Corresponds SameError (List.Forall₂ (Counterpart ground.standpoint other.standpoint))
      ((on ground repository included excluded).addPattern (ground.files.isFile ground.current)
        (Glob.expansion ground.files ground.current) patterns found text)
      ((on other repository included excluded).addPattern (other.files.isFile other.current)
        (Glob.expansion other.files other.current) patterns others text) := by
  rw [addPattern_expansion, addPattern_expansion]
  by_cases notEmpty : text ≠ ""
  · have read := ground.plainRoot.ofText_joinText notEmpty staysBelow.relative
    have otherRead := other.plainRoot.ofText_joinText notEmpty staysBelow.relative
    cases own : Glob.Route.ofText text with
    | error fault =>
        rw [own] at read otherRead
        rcases mapError_eq_error_iff.mp read with ⟨one, isOne, oneReason⟩
        rcases mapError_eq_error_iff.mp otherRead with ⟨two, isTwo, twoReason⟩
        rw [on, on]
        dsimp only
        rw [isOne, isTwo]
        refine .error ?_
        rw [SameError, EntryPointError.unplaced, EntryPointError.unplaced, oneReason, twoReason]
    | ok route =>
        rw [own] at read otherRead
        rw [on, on]
        dsimp only
        rw [mapError_eq_ok_iff.mp read, mapError_eq_ok_iff.mp otherRead]
        refine .ok (forall₂_insertPaths (forall₂_kept view patterns ?_) same)
        exact Ground.forall₂_expand view (staysBelow.stays notEmpty own) fun _ =>
          Glob.Route.literal?_head_ne_empty notEmpty staysBelow.relative own
  · rw [not_not] at notEmpty
    rcases ground.plainRoot.exists_ofText_joinText_empty with ⟨route, read, only⟩
    rcases other.plainRoot.exists_ofText_joinText_empty with ⟨otherRoute, otherRead, otherOnly⟩
    rw [on, on, notEmpty]
    dsimp only
    rw [read, otherRead]
    dsimp only
    rw [kept_of_directoriesOnly _ only, kept_of_directoriesOnly _ otherOnly]
    exact .ok same

theorem corresponds_included
    (repository : String)
    (excluded : List String)
    (view : SameView ground.standpoint other.standpoint)
    (stayBelow : ∀ text ∈ included, StaysBelow text)
    (patterns : List Pattern) :
    Corresponds SameError (List.Forall₂ (Counterpart ground.standpoint other.standpoint))
      (included.foldlM ((on ground repository included excluded).addPattern
        (ground.files.isFile ground.current) (Glob.expansion ground.files ground.current)
        patterns) [])
      (included.foldlM ((on other repository included excluded).addPattern
        (other.files.isFile other.current) (Glob.expansion other.files other.current)
        patterns) []) :=
  corresponds_foldlM (fun text isIncluded _ _ same =>
    corresponds_addPattern view (stayBelow text isIncluded) patterns same) .nil

end Grounds

/-! ### Whole selections -/

/-- Whether the same files are selected, seen from two directories, in the same order. -/
def SameFiles (root otherRoot : Path) (points others : EntryPoints) : Prop :=
  points.repository = others.repository ∧
    ∃ relatives : List Path,
      points.files.map (·.stripBase? root) = relatives.map some ∧
        others.files.map (·.stripBase? otherRoot) = relatives.map some

theorem sameFiles_of_forall₂
    {ground other : Ground}
    {files others : List Path}
    (same : List.Forall₂ (Counterpart ground.standpoint other.standpoint) files others)
    (repository : String) :
    SameFiles ground.root other.root ⟨repository, files⟩ ⟨repository, others⟩ := by
  refine ⟨rfl, ?_⟩
  induction same with
  | nil => exact ⟨[], rfl, rfl⟩
  | cons head _ induction =>
      rcases head with ⟨pieces, -, rfl, rfl⟩
      rcases induction with ⟨relatives, isFiles, isOthers⟩
      refine ⟨Path.restOf pieces :: relatives, ?_, ?_⟩
      · rw [List.map_cons, List.map_cons, ground.stripBase?_path, ← isFiles]
      · rw [List.map_cons, List.map_cons, other.stripBase?_path, ← isOthers]

/--
Where two directories hold the same files and directories, patterns that stay
below them select the same: both times the same files in the same order, seen
from the directory, or both times the same error, up to the place at which a
pattern is invalid.  The paths to the directories may be different in any way, but
they are plain: without wildcards and without a dot in front.
-/
theorem selectIn_elsewhere
    (first second : Ground)
    (sameBelow : ∀ below,
      (first.files.entry? (first.location ++ below)).map Entry.isDirectory =
        (second.files.entry? (second.location ++ below)).map Entry.isDirectory)
    (repository : String)
    {included : List String}
    (stayBelow : ∀ text ∈ included, StaysBelow text)
    (excluded : List String) :
    Corresponds SameError (SameFiles first.root second.root)
      ((on first repository included excluded).selectIn first.files first.current)
      ((on second repository included excluded).selectIn second.files second.current) := by
  have view : SameView first.standpoint second.standpoint := sameBelow
  have samePatterns : Corresponds SameError Eq
      (on first repository included excluded).excludedPatterns
      (on second repository included excluded).excludedPatterns :=
    .refl sameError_refl (on first repository included excluded).excludedPatterns
  rw [selectIn, selectIn, select, select]
  refine samePatterns.bind fun patterns _ isSame => ?_
  cases isSame
  refine (corresponds_included repository excluded view stayBelow patterns).bind ?_
  intro files others same
  cases same with
  | nil => exact .error rfl
  | cons head tail => exact .ok (sameFiles_of_forall₂ (.cons head tail) repository)

/-- A repository in a directory at the root. -/
def settled : Ground where
  files :=
    ⟨[(["guide"], .directory), (["guide", "src"], .directory),
      (["guide", "src", "index.ts"], .file (.text "first") false)]⟩
  current := []
  root := .ofText "/guide"
  location := ["guide"]
  wellFormed := ⟨by decide, by decide⟩
  plainRoot := by decide +kernel
  leads := by decide +kernel

/-- The same repository beside the current directory. -/
def moved : Ground where
  files :=
    ⟨[(["srv"], .directory), (["srv", "tools"], .directory), (["srv", "copy"], .directory),
      (["srv", "copy", "src"], .directory),
      (["srv", "copy", "src", "index.ts"], .file (.text "second") false)]⟩
  current := ["srv", "tools"]
  root := .ofText "../copy/"
  location := ["srv", "copy"]
  wellFormed := ⟨by decide, by decide⟩
  plainRoot := by decide +kernel
  leads := by decide +kernel

theorem sameBelow_moved (below : Location) :
    (settled.files.entry? (settled.location ++ below)).map Entry.isDirectory =
      (moved.files.entry? (moved.location ++ below)).map Entry.isDirectory := by
  rcases below with _ | ⟨first, _ | ⟨second, _ | ⟨third, rest⟩⟩⟩
  · decide
  · simp [settled, moved, FileSystem.entry?, List.lookup_cons]
  · simp only [settled, moved, FileSystem.entry?]
    cases isIndex : (first == "src" && second == "index.ts") <;>
      simp [List.lookup_cons, isIndex, Entry.isDirectory]
  · simp [settled, moved, FileSystem.entry?, List.lookup_cons]

/-- What a repository at the root selects is selected beside the current directory too. -/
theorem selectIn_elsewhere_moved :
    (on settled "guide" ["", "src/*.ts"] ["*.test.ts"]).selectIn settled.files settled.current =
        .ok ⟨"guide", [.ofText "/guide/src/index.ts"]⟩ ∧
      ∃ others,
        (on moved "guide" ["", "src/*.ts"] ["*.test.ts"]).selectIn moved.files moved.current =
          .ok ⟨"guide", others⟩ ∧
        others.map (·.stripBase? moved.root) = [some (.ofText "src/index.ts")] := by
  have isSelected :
      (on settled "guide" ["", "src/*.ts"] ["*.test.ts"]).selectIn settled.files settled.current =
        .ok ⟨"guide", [.ofText "/guide/src/index.ts"]⟩ := by decide +kernel
  have elsewhere := selectIn_elsewhere settled moved sameBelow_moved "guide"
    (show ∀ text ∈ ["", "src/*.ts"], StaysBelow text by decide +kernel) ["*.test.ts"]
  rw [isSelected] at elsewhere
  refine ⟨isSelected, ?_⟩
  generalize (on moved "guide" ["", "src/*.ts"] ["*.test.ts"]).selectIn moved.files
    moved.current = result at elsewhere ⊢
  cases elsewhere with
  | @ok _ points related =>
      rcases points with ⟨_, others⟩
      rcases related with ⟨⟨⟩, relatives, isFirst, isOther⟩
      exact ⟨others, rfl, isOther.trans (isFirst.symm.trans (by decide +kernel))⟩

/-- Files in a directory whose name is a bracket. -/
def bracketed : FileSystem :=
  ⟨[(["[x]"], .directory), (["[x]", "index.ts"], .file (.text "") false)]⟩

/-- The same files in a directory with a plain name. -/
def plainlyNamed : FileSystem :=
  ⟨[(["x"], .directory), (["x", "index.ts"], .file (.text "") false)]⟩

/--
For paths to the directory in general that is not so: a bracket in the path is
read as part of the pattern, and then matches names of directories itself.
-/
theorem not_forall_selectIn_corresponds :
    ¬ ∀ (files others : FileSystem) (current otherCurrent : Location) (root otherRoot : Path)
        (location otherLocation : Location) (repository : String)
        (included excluded : List String),
      files.WellFormed → others.WellFormed → root.Written → otherRoot.Written →
      files.find? current root = some (location, .directory) →
      others.find? otherCurrent otherRoot = some (otherLocation, .directory) →
      (∀ below, files.entry? (location ++ below) = others.entry? (otherLocation ++ below)) →
      (∀ text ∈ included, (Path.ofText text).rooted = false ∧ ".." ∉ (Path.ofText text).pieces) →
        Corresponds SameError (SameFiles root otherRoot)
          (selectIn ⟨repository, root, included, excluded⟩ files current)
          (selectIn ⟨repository, otherRoot, included, excluded⟩ others otherCurrent) := by
  intro always
  have corresponds := always bracketed plainlyNamed [] [] (.ofText "/[x]") (.ofText "/x") ["[x]"]
    ["x"] "guide" ["index.ts"] [] ⟨by decide, by decide⟩ ⟨by decide, by decide⟩ ⟨_, rfl⟩ ⟨_, rfl⟩
    (by decide +kernel) (by decide +kernel) ?_ (by decide)
  · have failed : selectIn ⟨"guide", .ofText "/[x]", ["index.ts"], []⟩ bracketed [] =
        .error (.noEntryPoints "guide") := by decide +kernel
    have selected : selectIn ⟨"guide", .ofText "/x", ["index.ts"], []⟩ plainlyNamed [] =
        .ok ⟨"guide", [.ofText "/x/index.ts"]⟩ := by decide +kernel
    rw [failed, selected] at corresponds
    cases corresponds
  · intro below
    rcases below with _ | ⟨first, _ | ⟨second, rest⟩⟩
    · decide
    · simp [bracketed, plainlyNamed, FileSystem.entry?, List.lookup_cons]
    · simp [bracketed, plainlyNamed, FileSystem.entry?, List.lookup_cons]

-- The expansion drops a dot in front, and what it yields is no longer seen from the directory.
example :
    selectIn ⟨"guide", .ofText "x", ["index.ts"], ["index.ts"]⟩ plainlyNamed [] =
        .error (.noEntryPoints "guide") ∧
      selectIn ⟨"guide", .ofText "./x", ["index.ts"], ["index.ts"]⟩ plainlyNamed [] =
        .ok ⟨"guide", [.ofText "x/index.ts"]⟩ := by
  decide +kernel

-- A pattern that begins with a dot may stand for the directory above.
example :
    selectIn ⟨"guide", .ofText "/y", [".*/index.ts"], []⟩
        ⟨[(["y"], .directory), (["index.ts"], .file (.text "") false)]⟩ [] =
      .ok ⟨"guide", [.ofText "/y/../index.ts"]⟩ := by
  decide +kernel

end Selection

end Concordance
