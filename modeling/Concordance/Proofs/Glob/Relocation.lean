import Concordance.Proofs.FileSystem.Standpoint
import Concordance.Proofs.Glob.Reading
import Concordance.Proofs.Path.Ordering

/-!
# Expanding patterns in another place

The pieces of a plain path in front of a pattern are followed one by one to the
directory to which the path leads (`PlainRoot.expandFrom_behind`).  From there on
only what lies below that directory matters, unless a pattern climbs: two
directories that hold the same yield the same paths below them, in the same order
(`yieldsSame`).  The file systems may have different depths, since the
double star goes down far enough in each of them.
-/

namespace Concordance.Glob

open Concordance.FileSystem (Standpoint SameView Enters ZeroFree)
open Concordance.Path (Component moves component?)

variable {files : FileSystem} {current : Location}

/-! ### Names behind an anchored path -/

theorem below_of_anchored {directory : Path} (anchored : directory.Anchored) (name : String) :
    below directory name = directory.joinText name := by
  refine if_neg fun same => ?_
  have isDot : directory.components = [.current] := Path.same_iff.mp same
  have inComponents : Component.current ∈ directory.components :=
    isDot ▸ List.mem_singleton_self _
  rw [Path.components_of_anchored anchored, List.mem_append] at inComponents
  rcases inComponents with inRoot | inMoves
  · split at inRoot <;> simp at inRoot
  · rcases List.mem_filterMap.mp inMoves with ⟨piece, -, isMove⟩
    rcases Path.component?_cases piece with ⟨-, idle⟩ | ⟨-, up⟩ | ⟨-, -, -, down⟩
    · cases isMove.symm.trans idle
    · cases isMove.symm.trans up
    · cases isMove.symm.trans down

/-- A piece goes behind an anchored path, unless it is empty and the path is the root. -/
theorem below_cases
    {directory : Path}
    (anchored : directory.Anchored)
    {piece : String}
    (slashFree : '/' ∉ piece.toList) :
    below directory piece = directory.extend [piece] ∨
      piece = "" ∧ below directory piece = directory := by
  rw [below_of_anchored anchored]
  by_cases something : piece ≠ "" ∨ directory.pieces ≠ []
  · rw [Path.joinText_piece slashFree something, Path.extend_of_ne_nil (List.cons_ne_nil _ _)]
    exact .inl rfl
  · rw [not_or, not_not, not_not] at something
    rcases something with ⟨rfl, isNil⟩
    rcases directory with ⟨isRooted, pieces⟩
    cases isNil
    rcases anchored with ⟨⟨⟩⟩ | ⟨first, rest, ⟨⟩, -⟩
    exact .inr ⟨rfl, rfl⟩

/-- What a piece behind an anchored path adds. -/
theorem below_adds
    {directory : Path}
    (anchored : directory.Anchored)
    {piece : String}
    (slashFree : '/' ∉ piece.toList) :
    (below directory piece).Anchored ∧
      (below directory piece).rooted = directory.rooted ∧
      moves (below directory piece).pieces = moves directory.pieces ++ moves [piece] ∧
      (ZeroFree directory.pieces → ZeroFree [piece] → ZeroFree (below directory piece).pieces) := by
  rcases below_cases anchored slashFree with isBelow | ⟨rfl, isSame⟩
  · rw [isBelow]
    exact ⟨anchored.extend _, Path.rooted_extend _ _, Path.moves_extend _ _,
      fun zeroFree noZero => FileSystem.zeroFree_extend_iff.mpr ⟨zeroFree, noZero⟩⟩
  · rw [isSame]
    exact ⟨anchored, rfl, (List.append_nil _).symm, fun zeroFree _ => zeroFree⟩

theorem ne_empty_of_anchored {path : Path} (anchored : path.Anchored) : path ≠ Path.empty := by
  rintro rfl
  exact Path.components_ne_nil_of_anchored anchored rfl

/-! ### One step of an expansion -/

theorem expandFrom_of_literal
    {pattern : Pattern}
    {name : String}
    (literal : pattern.literal? = some name)
    (patterns : List Pattern)
    (directory : Path) :
    expandFrom files current (pattern :: patterns) directory =
      if canFollow files current directory name then
        expandFrom files current patterns (below directory name)
      else [] := by
  rw [expandFrom.eq_def]
  dsimp only
  rw [literal]

theorem expandFrom_of_recursive
    {pattern : Pattern}
    (recursive : pattern.isRecursive = true)
    (patterns : List Pattern)
    (directory : Path) :
    expandFrom files current (pattern :: patterns) directory =
      match patterns with
      | [] =>
          descend files current
            (fun path _ => if files.isDirectory current path then [path] else [])
            files.depth directory
      | next :: patterns =>
          descend files current
            (fun path name =>
              if next.accepts name then expandFrom files current patterns path else [])
            files.depth directory := by
  rw [expandFrom.eq_def]
  dsimp only
  rw [Pattern.literal?_of_isRecursive recursive]
  dsimp only
  refine (if_pos recursive).trans ?_
  cases patterns <;> rfl

theorem expandFrom_of_wild
    {pattern : Pattern}
    (wild : pattern.literal? = none)
    (notRecursive : pattern.isRecursive = false)
    (patterns : List Pattern)
    (directory : Path) :
    expandFrom files current (pattern :: patterns) directory =
      (specialNames files current directory pattern).flatMap
          (fun name => expandFrom files current patterns (directory.joinText name))
        ++ (namesIn files current directory).flatMap fun name =>
          if pattern.accepts name then
            expandFrom files current patterns (below directory name)
          else [] := by
  rw [expandFrom.eq_def]
  dsimp only
  rw [wild]
  dsimp only
  rw [if_neg (Bool.eq_false_iff.mp notRecursive)]

/-! ### Following a plain path -/

theorem expandFrom_plain
    {directory : Path}
    {piece : String}
    (canFollow : canFollow files current directory piece = true)
    (patterns : List Pattern) :
    expandFrom files current (Pattern.plain piece :: patterns) directory =
      expandFrom files current patterns (below directory piece) := by
  rw [expandFrom_of_literal (Pattern.literal?_plain piece), if_pos canFollow]

theorem canFollow_of_enters
    {directory : Path}
    {piece : String}
    {above location : Location}
    (notEmpty : directory ≠ Path.empty)
    (notEmptyBelow : below directory piece ≠ Path.empty)
    (enters : files.Enters current directory above)
    (entersBelow : files.Enters current (below directory piece) location) :
    canFollow files current directory piece = true := by
  rw [canFollow]
  split
  · rw [FileSystem.isDirectory, enters.find? notEmpty]
  · rw [FileSystem.exists?, entersBelow.find? notEmptyBelow]
    rfl

/--
Whether a path is anchored, has the moves of another one, and enters a directory.
-/
structure Arrives
    (files : FileSystem)
    (current : Location)
    (base path : Path)
    (location : Location) : Prop where
  anchored : path.Anchored
  rooted : path.rooted = base.rooted
  moves : moves path.pieces = moves base.pieces
  enters : files.Enters current path location

theorem Arrives.of_same
    {base other path : Path}
    {location : Location}
    (arrives : Arrives files current base path location)
    (sameRooted : base.rooted = other.rooted)
    (sameMoves : Path.moves base.pieces = Path.moves other.pieces) :
    Arrives files current other path location :=
  ⟨arrives.anchored, arrives.rooted.trans sameRooted, arrives.moves.trans sameMoves,
    arrives.enters⟩

/-- A plain way from a directory to another one is followed to its end. -/
theorem expandFrom_map_plain
    {directory : Path}
    (anchored : directory.Anchored)
    {pieces : List String}
    (slashFree : ∀ piece ∈ pieces, '/' ∉ piece.toList)
    {location : Location}
    (enters : files.Enters current (directory.extend pieces) location) :
    Arrives files current (directory.extend pieces) (pieces.foldl below directory) location ∧
      ∀ patterns, expandFrom files current (pieces.map Pattern.plain ++ patterns) directory =
        expandFrom files current patterns (pieces.foldl below directory) := by
  induction pieces generalizing directory with
  | nil =>
      rw [Path.extend_nil] at enters ⊢
      exact ⟨⟨anchored, rfl, rfl, enters⟩, fun _ => rfl⟩
  | cons piece pieces induction =>
      rcases List.forall_mem_cons.mp slashFree with ⟨freePiece, freePieces⟩
      rcases below_adds anchored freePiece with ⟨anchoredBelow, isRooted, isMoves, keepsZeroFree⟩
      have sameRooted : ((below directory piece).extend pieces).rooted =
          (directory.extend (piece :: pieces)).rooted := by
        rw [Path.rooted_extend, Path.rooted_extend, isRooted]
      have sameMoves : moves ((below directory piece).extend pieces).pieces =
          moves (directory.extend (piece :: pieces)).pieces := by
        rw [Path.moves_extend, Path.moves_extend, isMoves, List.append_assoc, ← Path.moves_append]
        rfl
      have entersAll : files.Enters current ((below directory piece).extend pieces) location := by
        rcases FileSystem.zeroFree_extend_iff.mp enters.zeroFree with ⟨zeroFree, zeroFreeBehind⟩
        rcases FileSystem.zeroFree_cons.mp zeroFreeBehind with ⟨noZero, zeroFreeRest⟩
        have zeroFreeBelow := keepsZeroFree zeroFree (List.forall_mem_singleton.mpr noZero)
        exact enters.congr sameRooted sameMoves
          (FileSystem.zeroFree_extend_iff.mpr ⟨zeroFreeBelow, zeroFreeRest⟩)
      rcases enters.of_extend with ⟨above, entersHere⟩
      rcases entersAll.of_extend with ⟨next, entersNext⟩
      have followed := canFollow_of_enters (ne_empty_of_anchored anchored)
        (ne_empty_of_anchored anchoredBelow) entersHere entersNext
      rcases induction anchoredBelow freePieces entersAll with ⟨arrives, expanded⟩
      refine ⟨arrives.of_same sameRooted sameMoves, fun patterns => ?_⟩
      rw [List.map_cons, List.cons_append, expandFrom_plain followed, expanded]
      rfl

variable {root : Path}

/-- Where the pieces of a path end if they are followed one by one. -/
def arrival (root : Path) : Path :=
  (Path.openPieces root.pieces).foldl below (if root.rooted then ⟨true, []⟩ else here)

theorem PlainRoot.slashFree (plainRoot : PlainRoot root) :
    ∀ piece ∈ Path.openPieces root.pieces, '/' ∉ piece.toList :=
  fun piece inRoot => (Path.written_iff_legible.mp plainRoot.written).slashFree piece
    (Path.mem_of_mem_openPieces inRoot)

theorem PlainRoot.expandFrom_rooted
    (plainRoot : PlainRoot root)
    (isRooted : root.rooted = true)
    {location : Location}
    (enters : files.Enters current root location) :
    Arrives files current root (arrival root) location ∧
      ∀ patterns, expandFrom files current
          ((Path.openPieces root.pieces).map Pattern.plain ++ patterns) ⟨true, []⟩ =
        expandFrom files current patterns (arrival root) := by
  have sameRooted : (Path.extend ⟨true, []⟩ (Path.openPieces root.pieces)).rooted =
      root.rooted := by
    rw [Path.rooted_extend, isRooted]
  have sameMoves : moves (Path.extend ⟨true, []⟩ (Path.openPieces root.pieces)).pieces =
      moves root.pieces := by
    rw [Path.moves_extend, Path.moves_openPieces]
    rfl
  have zeroFree := FileSystem.zeroFree_openPieces_iff.mpr enters.zeroFree
  have entersAll := enters.congr sameRooted sameMoves
    (FileSystem.zeroFree_extend_iff.mpr ⟨List.forall_mem_nil _, zeroFree⟩)
  have isArrival : arrival root = (Path.openPieces root.pieces).foldl below ⟨true, []⟩ := by
    rw [arrival, isRooted, if_pos rfl]
  rcases expandFrom_map_plain (.inl rfl) plainRoot.slashFree entersAll with ⟨arrives, expanded⟩
  rw [← isArrival] at arrives expanded
  exact ⟨arrives.of_same sameRooted sameMoves, expanded⟩

/-- The first piece of a relative path is not put behind the dot from which it is followed. -/
theorem PlainRoot.exists_first
    (plainRoot : PlainRoot root)
    (relative : root.rooted = false) :
    ∃ first others, Path.openPieces root.pieces = first :: others ∧
      Path.Anchored ⟨false, [first]⟩ ∧ below here first = ⟨false, [first]⟩ := by
  rcases plainRoot.anchored with rooted | ⟨first, rest, isPieces, moving⟩
  · cases relative.symm.trans rooted
  · have notEmpty := (Path.component?_of_isSome moving).1
    rcases Path.exists_openPieces_eq_cons notEmpty rest with ⟨others, isOpen⟩
    rw [← isPieces] at isOpen
    refine ⟨first, others, isOpen, .inr ⟨first, [], rfl, moving⟩, ?_⟩
    have slashFree := plainRoot.slashFree first (isOpen ▸ List.mem_cons_self)
    rw [below, if_pos (by decide), Path.ofText_of_slashFree notEmpty slashFree]

theorem PlainRoot.expandFrom_relative
    (plainRoot : PlainRoot root)
    (relative : root.rooted = false)
    {location : Location}
    (enters : files.Enters current root location) :
    Arrives files current root (arrival root) location ∧
      ∀ patterns, expandFrom files current
          ((Path.openPieces root.pieces).map Pattern.plain ++ patterns) here =
        expandFrom files current patterns (arrival root) := by
  rcases plainRoot.exists_first relative with ⟨first, others, isOpen, anchored, isBelow⟩
  have slashFree := plainRoot.slashFree
  have zeroFree := FileSystem.zeroFree_openPieces_iff.mpr enters.zeroFree
  rw [isOpen] at slashFree zeroFree ⊢
  have sameRooted : (Path.extend ⟨false, [first]⟩ others).rooted = root.rooted := by
    rw [Path.rooted_extend, relative]
  have sameMoves : moves (Path.extend ⟨false, [first]⟩ others).pieces = moves root.pieces := by
    rw [Path.moves_extend, ← Path.moves_append, ← Path.moves_openPieces root.pieces, isOpen]
    rfl
  have entersAll := enters.congr sameRooted sameMoves
    (FileSystem.zeroFree_extend_iff.mpr (List.forall_mem_append.mp zeroFree))
  have entersHere : files.Enters current here current := by
    have isStart := enters.isStart
    rw [FileSystem.startOf, relative] at isStart
    exact ⟨List.forall_mem_singleton.mpr (by decide), isStart, rfl⟩
  rcases entersAll.of_extend with ⟨next, entersFirst⟩
  have followed := canFollow_of_enters (by decide)
    (isBelow ▸ ne_empty_of_anchored anchored) entersHere (isBelow ▸ entersFirst)
  have isArrival : arrival root = others.foldl below ⟨false, [first]⟩ := by
    rw [arrival, relative, isOpen, List.foldl_cons, if_neg Bool.false_ne_true, isBelow]
  rcases expandFrom_map_plain anchored (List.forall_mem_cons.mp slashFree).2 entersAll with
    ⟨arrives, expanded⟩
  rw [← isArrival] at arrives expanded
  refine ⟨arrives.of_same sameRooted sameMoves, fun patterns => ?_⟩
  rw [List.map_cons, List.cons_append, expandFrom_plain followed, isBelow, expanded]

/-- A plain path to a directory in front of patterns is followed to its end. -/
theorem PlainRoot.expandFrom_behind
    (plainRoot : PlainRoot root)
    {location : Location}
    (enters : files.Enters current root location) :
    Arrives files current root (arrival root) location ∧
      ∀ patterns, expandFrom files current
          ((Path.openPieces root.pieces).map Pattern.plain ++ patterns)
          (if root.rooted then ⟨true, []⟩ else here) =
        expandFrom files current patterns (arrival root) := by
  cases isRooted : root.rooted with
  | true => exact plainRoot.expandFrom_rooted isRooted enters
  | false => exact plainRoot.expandFrom_relative isRooted enters

/-! ### Going down -/

theorem exists_directory_of_mem_namesIn
    {directory : Path}
    {name : String}
    (isName : name ∈ namesIn files current directory) :
    ∃ location, files.find? current directory = some (location, .directory) ∧
      name ∈ files.names location := by
  rw [namesIn] at isName
  split at isName
  · rename_i location found
    exact ⟨location, found, isName⟩
  · exact (List.not_mem_nil isName).elim

/-- Whether some number of levels is enough for all directories from a path on. -/
def Reaches (files : FileSystem) (current : Location) (levels : Nat) (directory : Path) : Prop :=
  ∀ location, files.find? current directory = some (location, .directory) →
    files.depth ≤ levels + location.length

theorem reaches_depth (directory : Path) : Reaches files current files.depth directory :=
  fun _ _ => Nat.le_add_right _ _

theorem namesIn_eq_nil_of_reaches
    {directory : Path}
    (reaches : Reaches files current 0 directory) :
    namesIn files current directory = [] := by
  refine List.eq_nil_iff_forall_not_mem.mpr fun name isName => ?_
  rcases exists_directory_of_mem_namesIn isName with ⟨location, found, isName⟩
  have deep := reaches location found
  have shallow := FileSystem.length_lt_depth isName
  omega

variable {first second : Standpoint}

theorem below_path
    (standpoint : Standpoint)
    {pieces : List String}
    {name : String}
    (slashFree : '/' ∉ name.toList)
    (something : name ≠ "" ∨ pieces ≠ []) :
    below (standpoint.path pieces) name =
      standpoint.path (Path.openPieces pieces ++ [name]) := by
  rw [below_of_anchored (standpoint.anchored_path pieces)]
  exact Path.joinText_extend slashFree something standpoint.base

theorem fileName_of_mem_namesIn
    {standpoint : Standpoint}
    {directory : Path}
    {name : String}
    (isName : name ∈ namesIn standpoint.files standpoint.current directory) :
    FileSystem.FileName name := by
  rcases exists_directory_of_mem_namesIn isName with ⟨location, -, isName⟩
  exact standpoint.wellFormed.fileName isName

theorem Reaches.below
    {standpoint : Standpoint}
    {levels : Nat}
    {pieces : List String}
    (reaches : Reaches standpoint.files standpoint.current (levels + 1) (standpoint.path pieces))
    {name : String}
    (isName : name ∈ namesIn standpoint.files standpoint.current (standpoint.path pieces)) :
    Reaches standpoint.files standpoint.current levels (below (standpoint.path pieces) name) := by
  intro location found
  rcases exists_directory_of_mem_namesIn isName with ⟨above, foundAbove, -⟩
  rw [below_of_anchored (standpoint.anchored_path pieces)] at found
  have isBelow := FileSystem.eq_of_find?_joinText foundAbove (fileName_of_mem_namesIn isName) found
  have deep := reaches above foundAbove
  rw [isBelow, List.length_append, List.length_singleton]
  omega

/-! ### The same below two directories -/

/-- Whether two paths are the same seen from two directories, without a step up. -/
def Counterpart (first second : Standpoint) (path other : Path) : Prop :=
  ∃ pieces, ".." ∉ pieces ∧ path = first.path pieces ∧ other = second.path pieces

theorem forall₂_flatMap
    {Related : Path → Path → Prop}
    {names : List String}
    {found others : String → List Path}
    (each : ∀ name ∈ names, List.Forall₂ Related (found name) (others name)) :
    List.Forall₂ Related (names.flatMap found) (names.flatMap others) := by
  have sameNames : List.Forall₂ (fun name other => name = other ∧ name ∈ names) names names :=
    List.forall₂_same.mpr fun name isName => ⟨rfl, isName⟩
  refine List.rel_flatMap sameNames ?_
  rintro name _ ⟨rfl, isName⟩
  exact each name isName

theorem noUp_below
    {pieces : List String}
    {name : String}
    (noUp : ".." ∉ pieces)
    (notUp : name ≠ "..") :
    ".." ∉ Path.openPieces pieces ++ [name] := by
  rw [List.mem_append, List.mem_singleton, not_or]
  exact ⟨mt Path.mem_of_mem_openPieces noUp, Ne.symm notUp⟩

/-- The double star finds the same, however deep the two file systems are. -/
theorem forall₂_descend
    (view : SameView first second)
    {visit visitOther : Path → String → List Path}
    (visitSame : ∀ pieces name, ".." ∉ pieces → pieces ≠ [] →
      List.Forall₂ (Counterpart first second) (visit (first.path pieces) name)
        (visitOther (second.path pieces) name))
    {levels otherLevels : Nat}
    {pieces : List String}
    (noUp : ".." ∉ pieces)
    (reaches : Reaches first.files first.current levels (first.path pieces))
    (otherReaches : Reaches second.files second.current otherLevels (second.path pieces)) :
    List.Forall₂ (Counterpart first second)
      (descend first.files first.current visit levels (first.path pieces))
      (descend second.files second.current visitOther otherLevels (second.path pieces)) := by
  have sameNames := view.namesIn noUp
  induction levels generalizing otherLevels pieces with
  | zero =>
      rw [namesIn_eq_nil_of_reaches reaches] at sameNames
      cases otherLevels with
      | zero => exact .nil
      | succ otherLevels =>
          rw [Glob.descend, Glob.descend, ← sameNames]
          exact .nil
  | succ levels induction =>
      cases otherLevels with
      | zero =>
          rw [namesIn_eq_nil_of_reaches otherReaches] at sameNames
          rw [Glob.descend, Glob.descend, sameNames]
          exact .nil
      | succ otherLevels =>
          rw [Glob.descend, Glob.descend, ← sameNames]
          refine forall₂_flatMap fun name isName => ?_
          have isOtherName := sameNames ▸ isName
          have isFileName := fileName_of_mem_namesIn isName
          have reachesBelow := reaches.below isName
          have otherReachesBelow := otherReaches.below isOtherName
          have noUpBelow := noUp_below noUp isFileName.ne_up
          dsimp only
          rw [below_path first isFileName.slashFree (.inl isFileName.ne_empty)] at reachesBelow ⊢
          rw [below_path second isFileName.slashFree (.inl isFileName.ne_empty)]
            at otherReachesBelow ⊢
          refine List.rel_append (visitSame _ name noUpBelow (List.concat_ne_nil _ _)) ?_
          exact induction noUpBelow reachesBelow otherReachesBelow (view.namesIn noUpBelow)

/-- Whether a pattern is offered the directory above and takes it. -/
def Pattern.Climbs (pattern : Pattern) : Prop :=
  pattern.startsWithDot = true ∧ pattern.accepts ".." = true

instance (pattern : Pattern) : Decidable pattern.Climbs :=
  inferInstanceAs (Decidable (_ ∧ _))

theorem Pattern.climbs_of_literal?
    {pattern : Pattern}
    (literal : pattern.literal? = some "..") :
    pattern.Climbs := by
  rw [Pattern.eq_plain_of_literal? literal]
  exact ⟨by decide, by decide⟩

/-- Whether a pattern stays below the directory in which it is expanded, and within one piece. -/
structure Pattern.Stays (pattern : Pattern) : Prop where
  notUp : ¬ pattern.Climbs
  slashFree : ∀ name, pattern.literal? = some name → '/' ∉ name.toList

/-- Whether patterns yield the same paths from two directories. -/
def YieldsSame
    (first second : Standpoint)
    (patterns : List Pattern)
    (pieces : List String) : Prop :=
  List.Forall₂ (Counterpart first second)
    (expandFrom first.files first.current patterns (first.path pieces))
    (expandFrom second.files second.current patterns (second.path pieces))

/-- The piece without wildcards can be followed from both directories, or from none. -/
theorem canFollow_path
    (view : SameView first second)
    {pieces : List String}
    (noUp : ".." ∉ pieces)
    {name : String}
    (slashFree : '/' ∉ name.toList)
    (notUp : name ≠ "..")
    (something : name ≠ "" ∨ pieces ≠ []) :
    canFollow first.files first.current (first.path pieces) name =
      canFollow second.files second.current (second.path pieces) name := by
  rw [canFollow, canFollow, below_path first slashFree something,
    below_path second slashFree something, view.isDirectory noUp,
    view.exists? (noUp_below noUp notUp)]

/-- Only the directory itself is offered to a pattern that does not climb. -/
theorem eq_dot_of_mem_specialNames
    {pattern : Pattern}
    (notUp : ¬ pattern.Climbs)
    {directory : Path}
    {name : String}
    (isSpecial : name ∈ specialNames files current directory pattern) :
    name = "." := by
  rw [specialNames] at isSpecial
  split at isSpecial
  · rename_i offered
    rcases List.mem_filter.mp isSpecial with ⟨isOffered, accepts⟩
    rcases List.mem_cons.mp isOffered with rfl | isDot
    · exact (notUp ⟨(Bool.and_eq_true_iff.mp offered).2, accepts⟩).elim
    · exact List.mem_singleton.mp isDot
  · exact (List.not_mem_nil isSpecial).elim

/-- Whether patterns and those behind each of them yield the same below two directories. -/
def YieldsSameBelow (first second : Standpoint) (patterns : List Pattern) : Prop :=
  ∀ suffix, suffix <:+ patterns →
    ∀ pieces, ".." ∉ pieces → pieces ≠ [] → YieldsSame first second suffix pieces

/-- The same name is entered from both directories. -/
theorem YieldsSameBelow.enters
    {patterns : List Pattern}
    (behind : YieldsSameBelow first second patterns)
    {pieces : List String}
    (noUp : ".." ∉ pieces)
    {name : String}
    (slashFree : '/' ∉ name.toList)
    (notUp : name ≠ "..")
    (something : name ≠ "" ∨ pieces ≠ []) :
    List.Forall₂ (Counterpart first second)
      (expandFrom first.files first.current patterns (below (first.path pieces) name))
      (expandFrom second.files second.current patterns (below (second.path pieces) name)) := by
  rw [below_path first slashFree something, below_path second slashFree something]
  exact behind patterns (List.suffix_refl _) _ (noUp_below noUp notUp) (List.concat_ne_nil _ _)

/-- A piece without wildcards leads to one name. -/
theorem yieldsSame_of_literal
    (view : SameView first second)
    {pattern : Pattern}
    {name : String}
    (literal : pattern.literal? = some name)
    (stays : pattern.Stays)
    {patterns : List Pattern}
    (behind : YieldsSameBelow first second patterns)
    {pieces : List String}
    (noUp : ".." ∉ pieces)
    (something : name ≠ "" ∨ pieces ≠ []) :
    YieldsSame first second (pattern :: patterns) pieces := by
  have slashFree := stays.slashFree name literal
  have notUp : name ≠ ".." := fun isUp =>
    stays.notUp (Pattern.climbs_of_literal? (isUp ▸ literal))
  rw [YieldsSame, expandFrom_of_literal literal, expandFrom_of_literal literal,
    canFollow_path view noUp slashFree notUp something]
  split
  · exact behind.enters noUp slashFree notUp something
  · exact .nil

/-- The double star leads to all directories below. -/
theorem yieldsSame_of_recursive
    (view : SameView first second)
    {pattern : Pattern}
    (recursive : pattern.isRecursive = true)
    {patterns : List Pattern}
    (behind : YieldsSameBelow first second patterns)
    {pieces : List String}
    (noUp : ".." ∉ pieces) :
    YieldsSame first second (pattern :: patterns) pieces := by
  rw [YieldsSame, expandFrom_of_recursive recursive, expandFrom_of_recursive recursive]
  cases patterns with
  | nil =>
      refine forall₂_descend view (fun pieces name noUp _ => ?_) noUp (reaches_depth _)
        (reaches_depth _)
      rw [view.isDirectory noUp]
      split
      · exact .cons ⟨pieces, noUp, rfl, rfl⟩ .nil
      · exact .nil
  | cons next patterns =>
      refine forall₂_descend view (fun pieces name noUp something => ?_) noUp (reaches_depth _)
        (reaches_depth _)
      split
      · exact behind patterns (List.suffix_cons next patterns) pieces noUp something
      · exact .nil

/-- A piece with wildcards leads to the directory itself, if it is offered, and to names in it. -/
theorem yieldsSame_of_wild
    (view : SameView first second)
    {pattern : Pattern}
    (wild : pattern.literal? = none)
    (single : pattern.isRecursive = false)
    (notUp : ¬ pattern.Climbs)
    {patterns : List Pattern}
    (behind : YieldsSameBelow first second patterns)
    {pieces : List String}
    (noUp : ".." ∉ pieces) :
    YieldsSame first second (pattern :: patterns) pieces := by
  have sameSpecial : specialNames first.files first.current (first.path pieces) pattern =
      specialNames second.files second.current (second.path pieces) pattern := by
    rw [specialNames, specialNames, view.isDirectory noUp]
  rw [YieldsSame, expandFrom_of_wild wild single, expandFrom_of_wild wild single,
    ← view.namesIn noUp, ← sameSpecial]
  refine List.rel_append (forall₂_flatMap fun name isSpecial => ?_)
    (forall₂_flatMap fun name isName => ?_)
  · rw [eq_dot_of_mem_specialNames notUp isSpecial,
      ← below_of_anchored (first.anchored_path pieces),
      ← below_of_anchored (second.anchored_path pieces)]
    exact behind.enters noUp (by decide) (by decide) (.inl (by decide))
  · have isFileName := fileName_of_mem_namesIn isName
    split
    · exact behind.enters noUp isFileName.slashFree isFileName.ne_up (.inl isFileName.ne_empty)
    · exact .nil

/-- One pattern yields the same, if the patterns behind it do. -/
theorem yieldsSame_cons
    (view : SameView first second)
    {pattern : Pattern}
    (stays : pattern.Stays)
    {patterns : List Pattern}
    (behind : YieldsSameBelow first second patterns)
    {pieces : List String}
    (noUp : ".." ∉ pieces)
    (begins : pieces = [] → pattern.literal? ≠ some "") :
    YieldsSame first second (pattern :: patterns) pieces := by
  cases literal : pattern.literal? with
  | some name =>
      refine yieldsSame_of_literal view literal stays behind noUp ?_
      by_contra nothing
      rw [not_or, not_not, not_not] at nothing
      exact begins nothing.2 (nothing.1 ▸ literal)
  | none =>
      cases recursive : pattern.isRecursive with
      | true => exact yieldsSame_of_recursive view recursive behind noUp
      | false => exact yieldsSame_of_wild view literal recursive stays.notUp behind noUp

/-- Below the two directories, patterns that stay there yield the same. -/
theorem yieldsSameBelow
    (view : SameView first second)
    {patterns : List Pattern}
    (stay : ∀ pattern ∈ patterns, pattern.Stays) :
    YieldsSameBelow first second patterns := by
  -- A double star takes two patterns at once, so the induction is over all ends of the list.
  induction patterns with
  | nil =>
      intro suffix isSuffix pieces noUp _
      rw [List.suffix_nil.mp isSuffix]
      exact .cons ⟨pieces, noUp, rfl, rfl⟩ .nil
  | cons pattern patterns induction =>
      rcases List.forall_mem_cons.mp stay with ⟨stays, stay⟩
      intro suffix isSuffix pieces noUp something
      rcases List.suffix_cons_iff.mp isSuffix with rfl | isSuffix
      · exact yieldsSame_cons view stays (induction stay) noUp fun isNil => (something isNil).elim
      · exact induction stay suffix isSuffix pieces noUp something

/-- Patterns that stay below yield the same from two directories that hold the same. -/
theorem yieldsSame
    (view : SameView first second)
    {patterns : List Pattern}
    (stay : ∀ pattern ∈ patterns, pattern.Stays)
    {pieces : List String}
    (noUp : ".." ∉ pieces)
    (begins : pieces = [] → ∀ pattern, patterns.head? = some pattern → pattern.literal? ≠ some "") :
    YieldsSame first second patterns pieces := by
  cases patterns with
  | nil => exact .cons ⟨pieces, noUp, rfl, rfl⟩ .nil
  | cons pattern patterns =>
      rcases List.forall_mem_cons.mp stay with ⟨stays, stay⟩
      exact yieldsSame_cons view stays (yieldsSameBelow view stay) noUp fun isNil =>
        begins isNil pattern rfl

/-! ### Whole routes -/

/-- A directory in which patterns are expanded, and a plain path to it. -/
structure Ground where
  files : FileSystem
  current : Location
  root : Path
  location : Location
  wellFormed : files.WellFormed
  plainRoot : PlainRoot root
  leads : files.find? current root = some (location, .directory)

namespace Ground

theorem enters (ground : Ground) :
    ground.files.Enters ground.current ground.root ground.location :=
  FileSystem.enters_of_find? ground.leads

theorem arrives (ground : Ground) :
    Arrives ground.files ground.current ground.root (arrival ground.root) ground.location :=
  (ground.plainRoot.expandFrom_behind ground.enters).1

/-- The directory as it is seen from behind the path. -/
def standpoint (ground : Ground) : Standpoint where
  files := ground.files
  current := ground.current
  base := arrival ground.root
  location := ground.location
  wellFormed := ground.wellFormed
  anchored := ground.arrives.anchored
  leads := ground.arrives.enters.find? (ne_empty_of_anchored ground.arrives.anchored)

theorem expand_behind (ground : Ground) (route : Route) :
    (route.behind ground.root).expand ground.files ground.current =
      if route.directoriesOnly then
        (expandFrom ground.files ground.current route.patterns (ground.standpoint.path [])).filter
          fun path => ground.files.isDirectory ground.current path
      else
        expandFrom ground.files ground.current route.patterns (ground.standpoint.path []) := by
  have followed := (ground.plainRoot.expandFrom_behind ground.enters).2 route.patterns
  have isStart : ground.standpoint.path [] = arrival ground.root := Path.extend_nil _
  rw [isStart, ← followed]
  rfl

/-- What lies below the directory is seen without the path to it. -/
theorem stripBase?_path (ground : Ground) (pieces : List String) :
    (ground.standpoint.path pieces).stripBase? ground.root = some (Path.restOf pieces) :=
  Path.stripBase?_extend ground.arrives.anchored ground.plainRoot.anchored ground.arrives.rooted
    ground.arrives.moves pieces

variable {first second : Ground}

/-- Routes that stay below yield the same from two directories that hold the same. -/
theorem forall₂_expand
    (view : SameView first.standpoint second.standpoint)
    {route : Route}
    (stay : ∀ pattern ∈ route.patterns, pattern.Stays)
    (begins : ∀ pattern, route.patterns.head? = some pattern → pattern.literal? ≠ some "") :
    List.Forall₂ (Counterpart first.standpoint second.standpoint)
      ((route.behind first.root).expand first.files first.current)
      ((route.behind second.root).expand second.files second.current) := by
  have found := yieldsSame view stay List.not_mem_nil fun _ => begins
  rw [expand_behind, expand_behind]
  split
  · refine List.rel_filter ?_ found
    rintro _ _ ⟨pieces, noUp, rfl, rfl⟩
    exact Bool.eq_iff_iff.mp (view.isDirectory noUp)
  · exact found

end Ground

end Concordance.Glob
