import Concordance.Proofs.Config.Discovery
import Concordance.Proofs.FileSystem.Resolving
import Mathlib.Data.List.Nodup

/-!
# Directories that are searched twice

The directories of a search are ancestors in writing: the one above `/site/..`
is `/site`, although the path leads to the root, and the one above that is the
root itself.  A double dot below the ceiling therefore makes the search come
to some directory twice, or to one that is not above its start; without one it
comes to each directory on the way down to its start once
(`once_iff_goesDown`).
-/

namespace Concordance

open Concordance.Path (Component moves)

/-! ### The locations of a walk -/

/-- The locations that moves come to, from a first one on. -/
def visited (base : Location) : List Component → List Location
  | [] => [base]
  | move :: path => base :: visited (move.seenFrom base) path

theorem mem_visited_base (base : Location) (path : List Component) :
    base ∈ visited base path := by
  cases path <;> exact List.mem_cons_self

theorem getLast?_visited (base : Location) (path : List Component) :
    (visited base path).getLast? = some (path.foldl Component.seenFrom base) := by
  induction path generalizing base with
  | nil => rfl
  | cons move path induction =>
      rw [visited, List.getLast?_cons, induction, List.foldl_cons]
      rfl

/-- The beginnings of a path point to the locations that it comes to. -/
theorem map_foldl_drop_inits
    {path : List Component}
    {count : Nat}
    (within : count ≤ path.length)
    (base : Location) :
    (path.inits.drop count).map (List.foldl Component.seenFrom base) =
      visited ((path.take count).foldl Component.seenFrom base) (path.drop count) := by
  induction path generalizing count base with
  | nil =>
      cases Nat.le_zero.mp within
      rfl
  | cons move path induction =>
      cases count with
      | zero =>
          have rest := induction (Nat.zero_le _) (move.seenFrom base)
          rw [List.drop_zero, List.drop_zero] at rest
          rw [List.inits_cons, List.drop_zero, List.drop_zero, List.map_cons, List.map_map,
            visited]
          exact congrArg (base :: ·) rest
      | succ count =>
          rw [List.inits_cons, List.drop_succ_cons, ← List.map_drop, List.map_map,
            List.take_succ_cons, List.drop_succ_cons, List.foldl_cons]
          exact induction (Nat.le_of_succ_le_succ within) (move.seenFrom base)

theorem length_seenFrom_le (base : Location) (move : Component) :
    (move.seenFrom base).length ≤ base.length + 1 := by
  cases move with
  | root | current | name => simp [Component.seenFrom]
  | parent => exact (base.length_dropLast).le.trans (by omega)

/--
A walk whose locations all lie above its end comes to each location above its
end that is no higher than its start.
-/
theorem mem_visited_of_above
    {base location : Location}
    {path : List Component}
    (above : ∀ place ∈ visited base path, place <+: path.foldl Component.seenFrom base)
    (isAbove : location <+: path.foldl Component.seenFrom base)
    (high : base.length ≤ location.length) :
    location ∈ visited base path := by
  induction path generalizing base with
  | nil =>
      rw [isAbove.eq_of_length_le high]
      exact mem_visited_base base []
  | cons move path induction =>
      rw [visited, List.mem_cons]
      rcases Nat.eq_or_lt_of_le high with level | higher
      · have baseAbove := above base List.mem_cons_self
        have upper := List.prefix_of_prefix_length_le isAbove baseAbove level.ge
        exact .inl (upper.eq_of_length level.symm)
      · refine .inr (induction ?_ isAbove ((length_seenFrom_le base move).trans higher))
        exact fun place inRest => above place (List.mem_cons_of_mem _ inRest)

/-- Moves that only go down, each to a name. -/
def GoDown (path : List Component) : Prop :=
  ∀ move ∈ path, ∃ name, move = .name name

theorem visited_of_goDown
    {path : List Component}
    (down : GoDown path)
    (base : Location) :
    (visited base path).Nodup ∧
      ∀ place ∈ visited base path,
        base <+: place ∧ place <+: path.foldl Component.seenFrom base := by
  induction path generalizing base with
  | nil =>
      refine ⟨List.nodup_singleton base, ?_⟩
      intro place inVisited
      rw [List.mem_singleton.mp inVisited]
      exact ⟨List.prefix_rfl, List.prefix_rfl⟩
  | cons move path induction =>
      rcases List.forall_mem_cons.mp down with ⟨⟨name, rfl⟩, downRest⟩
      rcases induction downRest (base ++ [name]) with ⟨once, between⟩
      have longer (place : Location) (inRest : place ∈ visited (base ++ [name]) path) :
          base.length < place.length := by
        have beginning := (between place inRest).1.length_le
        rw [List.length_append, List.length_singleton] at beginning
        exact beginning
      refine ⟨List.nodup_cons.mpr ⟨?_, once⟩, List.forall_mem_cons.mpr ⟨?_, ?_⟩⟩
      · exact fun inRest => Nat.lt_irrefl _ (longer base inRest)
      · refine ⟨List.prefix_rfl, ?_⟩
        have below := between _ (mem_visited_base (base ++ [name]) path)
        exact (List.prefix_append base [name]).trans below.2
      · intro place inRest
        rcases between place inRest with ⟨beginning, above⟩
        exact ⟨(List.prefix_append base [name]).trans beginning, above⟩

/--
A walk comes to no location twice, and only to locations above its end, exactly
if it only goes down.  Any other move leads no lower than where it starts, so
that the walk would come there again on its way to the end.
-/
theorem nodup_and_prefix_iff_goDown {base : Location} {path : List Component} :
    ((visited base path).Nodup ∧
        ∀ place ∈ visited base path, place <+: path.foldl Component.seenFrom base) ↔
      GoDown path := by
  constructor
  · rintro ⟨once, above⟩
    induction path generalizing base with
    | nil => exact nofun
    | cons move path induction =>
        rw [visited, List.nodup_cons] at once
        rcases List.forall_mem_cons.mp above with ⟨baseAbove, restAbove⟩
        refine List.forall_mem_cons.mpr ⟨?_, induction once.2 restAbove⟩
        cases move with
        | name name => exact ⟨name, rfl⟩
        | root | current | parent =>
            refine (once.1 (mem_visited_of_above restAbove baseAbove ?_)).elim
            simp [Component.seenFrom]
  · intro down
    rcases visited_of_goDown down base with ⟨once, between⟩
    exact ⟨once, fun place inVisited => (between place inVisited).2⟩

/-! ### Double dots -/

theorem parent_mem_moves_iff {pieces : List String} :
    .parent ∈ moves pieces ↔ ".." ∈ pieces := by
  rw [moves, List.mem_filterMap]
  constructor
  · rintro ⟨piece, inPieces, up⟩
    rcases Path.component?_cases piece with ⟨-, idle⟩ | ⟨rfl, -⟩ | ⟨-, -, -, down⟩
    · rw [idle] at up
      cases up
    · exact inPieces
    · rw [down] at up
      cases up
  · exact fun inPieces => ⟨"..", inPieces, by decide⟩

theorem mem_movesFrom {current : Location} {path : Path} {move : Component} :
    move ∈ Path.movesFrom current path → move = .parent ∨ ∃ name, move = .name name := by
  rw [Path.movesFrom, List.mem_append]
  rintro (inCurrent | inPath)
  · split at inCurrent
    · cases inCurrent
    · exact Path.mem_moves inCurrent
  · exact Path.mem_moves inPath

theorem goDown_iff_of_moves
    {path : List Component}
    (isMove : ∀ move ∈ path, move = .parent ∨ ∃ name, move = .name name) :
    GoDown path ↔ .parent ∉ path := by
  constructor
  · intro down inPath
    rcases down _ inPath with ⟨name, ⟨⟩⟩
  · intro noParent move inPath
    rcases isMove move inPath with rfl | isName
    · exact (noParent inPath).elim
    · exact isName

theorem length_foldl_seenFrom_le (base : Location) (path : List Component) :
    (path.foldl Component.seenFrom base).length ≤ base.length + path.length := by
  induction path generalizing base with
  | nil => exact Nat.le_refl _
  | cons move path induction =>
      have one := length_seenFrom_le base move
      have rest := induction (move.seenFrom base)
      rw [List.foldl_cons, List.length_cons]
      omega

theorem length_foldl_seenFrom_lt
    {path : List Component}
    (up : .parent ∈ path)
    (base : Location) :
    (path.foldl Component.seenFrom base).length < base.length + path.length := by
  induction path generalizing base with
  | nil => cases up
  | cons move path induction =>
      rw [List.foldl_cons, List.length_cons]
      rcases List.mem_cons.mp up with rfl | up
      · have rest := length_foldl_seenFrom_le (Component.parent.seenFrom base) path
        have shorter : (Component.parent.seenFrom base).length ≤ base.length :=
          (List.dropLast_prefix base).length_le
        omega
      · have one := length_seenFrom_le base move
        have rest := induction up (move.seenFrom base)
        omega

/-- A directory that is given by its location has no double dot in it. -/
theorem not_mem_of_find?_self
    {files : FileSystem}
    {current : Location}
    (here : files.find? [] ⟨true, current⟩ = some (current, .directory)) :
    ".." ∉ current := by
  rw [← parent_mem_moves_iff]
  intro up
  have same := FileSystem.eq_foldl_of_foldlM_enter?
    (FileSystem.find?_eq_directory_iff_of_rooted.mp here).2
  have shorter := length_foldl_seenFrom_lt up []
  rw [← same, List.length_nil, Nat.zero_add] at shorter
  exact Nat.not_lt.mpr (List.length_filterMap_le _ current) shorter

namespace LayerSearch

variable {files : FileSystem} {current : Location}

/-! ### The directories of a search -/

/-- Whether no double dot stands in the start of a search below its ceiling. -/
def GoesDown (search : LayerSearch) (current : Location) : Prop :=
  .parent ∉ (Path.movesFrom current search.start).drop
    (depth (search.ceiling.map (Path.movesFrom current)) (Path.movesFrom current search.start))

theorem goesDown_of_not_mem
    {search : LayerSearch}
    (here : files.find? [] ⟨true, current⟩ = some (current, .directory))
    (straight : ".." ∉ search.start.pieces) :
    search.GoesDown current := by
  intro inRest
  rcases List.mem_append.mp (List.mem_of_mem_drop inRest) with inCurrent | inStart
  · split at inCurrent
    · cases inCurrent
    · exact not_mem_of_find?_self here (parent_mem_moves_iff.mp inCurrent)
  · exact straight (parent_mem_moves_iff.mp inStart)

theorem mem_of_mem_upTo {ceiling : Option Path} {ancestors : List Path} {directory : Path} :
    directory ∈ upTo ceiling ancestors → directory ∈ ancestors := by
  induction ancestors with
  | nil => exact id
  | cons nearest farther induction =>
      rw [upTo]
      split
      · intro isNearest
        rw [List.mem_singleton.mp isNearest]
        exact List.mem_cons_self
      · intro inRest
        rcases List.mem_cons.mp inRest with rfl | inRest
        · exact List.mem_cons_self
        · exact List.mem_cons_of_mem _ (induction inRest)

/-- The directories of a search from a directory lead to directories. -/
theorem find?_of_mem_directories
    {search : LayerSearch}
    {location : Location}
    {directories : List Path}
    (here : files.find? [] ⟨true, current⟩ = some (current, .directory))
    (there : files.find? current search.start = some (location, .directory))
    (found : search.directories current = .ok directories) :
    ∀ directory ∈ directories,
      files.find? current directory =
        some (directory.components.foldl Component.seenFrom [], .directory) := by
  rcases directories_eq_ok found with ⟨pieces, ceiling, isStart, -, -, rfl⟩
  have leads := FileSystem.find?_absolute? here there isStart
  intro directory inDirectories
  have isAncestor := mem_of_mem_upTo (List.mem_reverse.mp inDirectories)
  rcases FileSystem.exists_find?_of_mem_ancestors leads isAncestor with ⟨above, foundAbove⟩
  have rooted := Path.rooted_of_mem_ancestors isAncestor
  rcases directory with ⟨isRooted, names⟩
  cases rooted
  rw [foundAbove, FileSystem.eq_foldl_components_of_find? foundAbove]

/-- The locations that a search comes to, from its ceiling down to its start. -/
theorem foldl_components_directories
    {search : LayerSearch}
    {directories : List Path}
    (found : search.directories current = .ok directories) :
    let path := Path.movesFrom current search.start
    let count := depth (search.ceiling.map (Path.movesFrom current)) path
    directories.map (fun directory => directory.components.foldl Component.seenFrom []) =
      visited ((path.take count).foldl Component.seenFrom []) (path.drop count) := by
  intro path count
  rw [← map_foldl_drop_inits (depth_le _ _)]
  have sameComponents := congrArg (List.map (List.foldl Component.seenFrom []))
    (map_components_directories found)
  rw [List.map_map, List.map_map] at sameComponents
  exact sameComponents

theorem foldl_movesFrom_start
    {search : LayerSearch}
    {location : Location}
    (here : files.find? [] ⟨true, current⟩ = some (current, .directory))
    (there : files.find? current search.start = some (location, .directory)) :
    (Path.movesFrom current search.start).foldl Component.seenFrom [] = location := by
  have notEmpty : search.start ≠ Path.empty := (FileSystem.find?_eq_directory_iff.mp there).2.1
  rcases Path.exists_absolute?_iff.mpr notEmpty with ⟨absolute, isAbsolute⟩
  rcases Path.moves_absolute? isAbsolute with ⟨pieces, rfl, sameMoves, -⟩
  have leads := FileSystem.find?_absolute? here there isAbsolute
  rw [← sameMoves]
  exact (FileSystem.eq_foldl_of_foldlM_enter?
    (FileSystem.find?_eq_directory_iff_of_rooted.mp leads).2).symm

/--
A search comes to directories only, and last to its start.  It comes to no
directory twice, and only to directories above its start, exactly if it only
goes down.
-/
theorem exists_locations
    {search : LayerSearch}
    {location : Location}
    {directories : List Path}
    (here : files.find? [] ⟨true, current⟩ = some (current, .directory))
    (there : files.find? current search.start = some (location, .directory))
    (found : search.directories current = .ok directories) :
    ∃ locations,
      List.Forall₂
        (fun directory place => files.find? current directory = some (place, .directory))
        directories locations ∧
      locations.getLast? = some location ∧
      ((locations.Nodup ∧ ∀ place ∈ locations, place <+: location) ↔
        search.GoesDown current) := by
  let path := Path.movesFrom current search.start
  let count := depth (search.ceiling.map (Path.movesFrom current)) path
  have isEnd : (path.drop count).foldl Component.seenFrom
      ((path.take count).foldl Component.seenFrom []) = location := by
    rw [← List.foldl_append, List.take_append_drop]
    exact foldl_movesFrom_start here there
  have isMove : ∀ move ∈ path.drop count, move = .parent ∨ ∃ name, move = .name name :=
    fun move inRest => mem_movesFrom (List.mem_of_mem_drop inRest)
  refine ⟨visited ((path.take count).foldl Component.seenFrom []) (path.drop count),
    ?_, ?_, ?_⟩
  · rw [← foldl_components_directories found, List.forall₂_map_right_iff, List.forall₂_same]
    exact find?_of_mem_directories here there found
  · rw [getLast?_visited, isEnd]
  · rw [← isEnd, nodup_and_prefix_iff_goDown, goDown_iff_of_moves isMove]
    rfl

/-! ### The files of a search -/

theorem exists_name_of_chosenFile
    {directory path : Path}
    {format : LayerFormat}
    (chosen : ChosenFile files current directory (some (path, format))) :
    ∃ name, FileSystem.FileName name ∧ path = directory.joinText name ∧
      files.isFile current path = true := by
  cases chosen with
  | json isJson => exact ⟨"doccer.json", by decide, rfl, isJson⟩
  | yaml _ isYaml => exact ⟨"doccer.yaml", by decide, rfl, isYaml⟩
  | yml _ _ isYml => exact ⟨"doccer.yml", by decide, rfl, isYml⟩

/-- The configuration file of a directory is a file in that directory. -/
theorem find?_of_layerFile?
    {directory path : Path}
    {format : LayerFormat}
    {place : Location}
    (above : files.find? current directory = some (place, .directory))
    (chosen : layerFile? files current directory = some (path, format)) :
    ∃ name content executable,
      files.find? current path = some (place ++ [name], .file content executable) := by
  rcases exists_name_of_chosenFile (chosenFile_iff.mpr chosen) with ⟨name, isName, rfl, isFile⟩
  rw [FileSystem.isFile] at isFile
  split at isFile
  · rename_i location content executable found
    have isPlace := FileSystem.eq_of_find?_joinText above isName found
    exact ⟨name, content, executable, isPlace ▸ found⟩
  · cases isFile

theorem path_of_readLayer
    {path : Path}
    {format : LayerFormat}
    {layer : Layer}
    (read : readLayer files current path format = .ok (some layer)) :
    layer.path = path := by
  cases readLayer_eq_iff.mp read
  rfl

/-- The merged files lie in directories of the search, in at most one each and in their order. -/
theorem places_of_layersOf
    {directories : List Path}
    {locations : List Location}
    (lead : List.Forall₂
      (fun directory place => files.find? current directory = some (place, .directory))
      directories locations)
    {layers : List Layer}
    (done : layersOf files current directories = .ok layers) :
    ∃ places : List Location,
      List.Forall₂
        (fun path place => ∃ content executable,
          files.find? current path = some (place, .file content executable))
        (layers.map Layer.path) places ∧
      (places.map List.dropLast).Sublist locations := by
  induction lead generalizing layers with
  | nil =>
      cases done
      exact ⟨[], .nil, .slnil⟩
  | @cons directory place directories locations above _ induction =>
      rcases bind_eq_ok_iff.mp done with ⟨layer, here, done⟩
      rcases bind_eq_ok_iff.mp done with ⟨rest, others, ⟨⟩⟩
      rcases induction others with ⟨places, lead, within⟩
      cases layer with
      | none => exact ⟨places, lead, within.cons place⟩
      | some layer =>
          rw [layerOf] at here
          split at here
          · rename_i path format chosen
            rcases find?_of_layerFile? above chosen with ⟨name, content, executable, found⟩
            rw [← path_of_readLayer here] at found
            refine ⟨(place ++ [name]) :: places, .cons ⟨content, executable, found⟩ lead, ?_⟩
            rw [List.map_cons, List.dropLast_concat]
            exact within.cons_cons place
          · cases here

/--
A search from an existing directory comes to directories only, and last to its
start.  It comes to no directory twice, and only to directories above its start,
exactly if no double dot stands below its ceiling, and then the files that it
merges are different files, each in a directory above its start.  No double dot
in the start is enough for that.
-/
theorem once_iff_goesDown
    {search : LayerSearch}
    {location : Location}
    (here : files.find? [] ⟨true, current⟩ = some (current, .directory))
    (there : files.find? current search.start = some (location, .directory)) :
    (search.ceiling ≠ some Path.empty →
        ∃ directories, search.directories current = .ok directories) ∧
      (∀ directories, search.directories current = .ok directories →
        ∃ locations,
          List.Forall₂
            (fun directory place => files.find? current directory = some (place, .directory))
            directories locations ∧
          locations.getLast? = some location ∧
          ((locations.Nodup ∧ ∀ place ∈ locations, place <+: location) ↔
            search.GoesDown current)) ∧
      (search.GoesDown current →
        ∀ value paths, search.merged files current = .ok (value, paths) →
          ∃ places : List Location,
            List.Forall₂
              (fun path place => ∃ content executable,
                files.find? current path = some (place, .file content executable))
              paths places ∧
            places.Nodup ∧ ∀ place ∈ places, place.dropLast <+: location) ∧
      (".." ∉ search.start.pieces → search.GoesDown current) := by
  have notEmpty : search.start ≠ Path.empty := (FileSystem.find?_eq_directory_iff.mp there).2.1
  refine ⟨fun hasCeiling => exists_directories notEmpty hasCeiling current,
    fun directories found => exists_locations here there found, ?_, goesDown_of_not_mem here⟩
  intro down value paths done
  rcases bind_eq_ok_iff.mp done with ⟨layers, isLayers, ⟨⟩⟩
  rcases bind_eq_ok_iff.mp isLayers with ⟨directories, found, isLayers⟩
  rcases exists_locations here there found with ⟨locations, lead, -, once_iff⟩
  rcases once_iff.mpr down with ⟨once, above⟩
  rcases places_of_layersOf lead isLayers with ⟨places, leadPlaces, within⟩
  refine ⟨places, leadPlaces, (once.sublist within).of_map _, ?_⟩
  intro place inPlaces
  exact above _ (within.subset (List.mem_map_of_mem inPlaces))

/-- A directory with a configuration file, and a site below it. -/
def workFiles : FileSystem :=
  ⟨[(["work"], .directory),
    (["work", "doccer.json"],
      .file (.text "\x7b\"repositories\": [\x7b\"name\": \"core\", \"url\": \"git:core\"\x7d]\x7d") false),
    (["work", "site"], .directory)]⟩

/-- A search that goes up to its ceiling in writing, and down from there. -/
def besideSearch : LayerSearch :=
  { start := .ofText "../site/", ceiling := some (.ofText "..") }

/-- Double dots at the ceiling do no harm: the layer above the site is merged once. -/
theorem once_iff_goesDown_beside :
    workFiles.find? [] ⟨true, ["work", "site"]⟩ = some (["work", "site"], .directory) ∧
      workFiles.find? ["work", "site"] besideSearch.start =
        some (["work", "site"], .directory) ∧
      (∃ directories locations,
        besideSearch.directories ["work", "site"] = .ok directories ∧
          List.Forall₂
            (fun directory place =>
              workFiles.find? ["work", "site"] directory = some (place, .directory))
            directories locations ∧
          locations.Nodup ∧ ∀ place ∈ locations, place <+: ["work", "site"]) ∧
      ∃ places : List Location,
        List.Forall₂
          (fun path place => ∃ content executable,
            workFiles.find? ["work", "site"] path = some (place, .file content executable))
          [⟨true, ["work", "site", "..", "doccer.json"]⟩] places ∧
        places.Nodup := by
  have here : workFiles.find? [] ⟨true, ["work", "site"]⟩ =
      some (["work", "site"], .directory) := by
    decide +kernel
  have there : workFiles.find? ["work", "site"] besideSearch.start =
      some (["work", "site"], .directory) := by
    decide +kernel
  have down : besideSearch.GoesDown ["work", "site"] := by
    unfold GoesDown
    decide +kernel
  have merged : besideSearch.merged workFiles ["work", "site"] = .ok
      (.object [("repositories",
          .array [.object [("name", .string "core"), ("url", .string "git:core")]])],
        [⟨true, ["work", "site", "..", "doccer.json"]⟩]) := by
    decide +kernel
  rcases once_iff_goesDown here there with ⟨finds, visits, files, -⟩
  rcases finds (by decide +kernel) with ⟨directories, found⟩
  rcases visits directories found with ⟨locations, lead, -, once_iff⟩
  rcases files down _ _ merged with ⟨places, leadPlaces, oncePlaces, -⟩
  exact ⟨here, there, ⟨directories, locations, found, lead, once_iff.mpr down⟩,
    places, leadPlaces, oncePlaces⟩

/-- A search from the site's parent, written with a double dot. -/
def parentSearch : LayerSearch :=
  { start := .ofText "/work/site/..", ceiling := some (.ofText "/work") }

/-- Some searches come to a directory twice: this one also reads the site below its start. -/
theorem not_forall_once :
    ¬ ∀ (files : FileSystem) (current : Location) (search : LayerSearch) (location : Location)
        (directories : List Path) (locations : List Location),
      files.find? [] ⟨true, current⟩ = some (current, .directory) →
      files.find? current search.start = some (location, .directory) →
      search.directories current = .ok directories →
      List.Forall₂
        (fun directory place => files.find? current directory = some (place, .directory))
        directories locations →
      locations.Nodup ∧ ∀ place ∈ locations, place <+: location := by
  intro once
  have found : parentSearch.directories [] =
      .ok [⟨true, ["work"]⟩, ⟨true, ["work", "site"]⟩, ⟨true, ["work", "site", ".."]⟩] := by
    decide +kernel
  have twice := once workFiles [] parentSearch ["work"] _
    [["work"], ["work", "site"], ["work"]] (by decide +kernel) (by decide +kernel) found
    (.cons (by decide +kernel) (.cons (by decide +kernel) (.cons (by decide +kernel) .nil)))
  exact absurd twice.1 (by decide)

end LayerSearch

end Concordance
