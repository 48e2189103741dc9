import Concordance.Proofs.Config.Directories
import Mathlib.Data.List.Forall2
import Mathlib.Data.List.ReduceOption

/-!
# Finding the layers

A path from the root without double dots leads to one location, whatever lies
there.  For such a start, and such a ceiling if there is one, the search goes
through the locations from the ceiling down to the start (`Spans`), takes the
first configuration file of each directory (`ChosenFile`) and reads the chosen
files one after the other (`LayerRead`).  `merged_of_straight` puts this
together: which files are merged, and which file's error ends the search.
-/

namespace Concordance

open Json (Value)
open Concordance.Path (moves)

/-! ### Locations -/

/-- A path from the root that goes only down leads to a location. -/
def Path.LeadsTo (path : Path) (location : Location) : Prop :=
  path.components = .root :: location.map .name

theorem Path.leadsTo_iff_of_rooted {pieces : List String} {location : Location} :
    (⟨true, pieces⟩ : Path).LeadsTo location ↔ moves pieces = location.map .name := by
  rw [LeadsTo, components_of_rooted, List.cons.injEq]
  exact and_iff_right rfl

theorem Path.exists_leadsTo
    {path : Path}
    (rooted : path.rooted = true)
    (straight : ".." ∉ path.pieces) :
    ∃ location, path.LeadsTo location := by
  rcases path with ⟨isRooted, pieces⟩
  cases rooted
  suffices ∃ location : Location, moves pieces = location.map .name from
    this.imp fun _ => leadsTo_iff_of_rooted.mpr
  induction pieces with
  | nil => exact ⟨[], rfl⟩
  | cons piece pieces induction =>
      rcases not_or.mp (mt List.mem_cons.mpr straight) with ⟨notUp, straight⟩
      rcases induction straight with ⟨location, isLocation⟩
      rcases component?_cases piece with ⟨-, idle⟩ | ⟨up, -⟩ | ⟨-, -, -, down⟩
      · exact ⟨location, by rw [moves_cons_of_none idle, isLocation]⟩
      · exact (notUp up.symm).elim
      · exact ⟨piece :: location, by rw [moves_cons_of_some down, isLocation, List.map_cons]⟩

theorem Path.LeadsTo.movesFrom_eq
    {path : Path}
    {location : Location}
    (leads : path.LeadsTo location)
    (rooted : path.rooted = true)
    (current : Location) :
    Path.movesFrom current path = location.map .name := by
  rcases path with ⟨isRooted, pieces⟩
  cases rooted
  rw [Path.movesFrom, if_pos rfl, List.nil_append]
  exact leadsTo_iff_of_rooted.mp leads

namespace LayerSearch

/-! ### Spans -/

/--
The locations from a ceiling down to a start, outermost first; from the root if
there is no ceiling above the start.
-/
structure Spans
    (ceiling : Option Location)
    (start : Location)
    (locations : List Location) : Prop where
  mem_iff (location : Location) :
    location ∈ locations ↔
      location <+: start ∧ ∀ top ∈ ceiling, top <+: start → top <+: location
  nested : locations.Pairwise fun outer inner => outer <+: inner ∧ outer ≠ inner

theorem mem_drop_inits {location start : Location} {count : Nat} :
    location ∈ start.inits.drop count ↔ location <+: start ∧ count ≤ location.length := by
  induction start generalizing location count with
  | nil =>
      cases count with
      | zero => simp
      | succ count =>
          constructor
          · intro inNothing
            simp at inNothing
          · rintro ⟨beginning, long⟩
            rw [List.prefix_nil.mp beginning] at long
            cases long
  | cons name start induction =>
      cases count with
      | zero => rw [List.drop_zero, List.mem_inits, and_iff_left (Nat.zero_le _)]
      | succ count =>
          rw [List.inits_cons, List.drop_succ_cons, ← List.map_drop, List.mem_map]
          constructor
          · rintro ⟨rest, inDrop, rfl⟩
            rcases induction.mp inDrop with ⟨beginning, long⟩
            exact ⟨(List.prefix_cons_inj name).mpr beginning, Nat.succ_le_succ long⟩
          · rintro ⟨beginning, long⟩
            cases location with
            | nil => cases long
            | cons first rest =>
                rcases List.cons_prefix_cons.mp beginning with ⟨rfl, below⟩
                exact ⟨rest, induction.mpr ⟨below, Nat.le_of_succ_le_succ long⟩, rfl⟩

theorem pairwise_inits (start : Location) :
    start.inits.Pairwise fun outer inner => outer <+: inner ∧ outer ≠ inner := by
  induction start with
  | nil => exact List.pairwise_singleton ..
  | cons name start induction =>
      rw [List.inits_cons, List.pairwise_cons, List.pairwise_map]
      constructor
      · intro inner isInner
        rcases List.mem_map.mp isInner with ⟨rest, -, rfl⟩
        exact ⟨List.nil_prefix, (List.cons_ne_nil name rest).symm⟩
      · refine induction.imp ?_
        rintro outer inner ⟨beginning, other⟩
        exact ⟨(List.prefix_cons_inj name).mpr beginning, fun same => other (List.cons.inj same).2⟩

theorem spans_drop_inits (ceiling : Option Location) (start : Location) :
    Spans ceiling start (start.inits.drop (depth ceiling start)) where
  mem_iff location := by
    rw [mem_drop_inits]
    refine and_congr_right fun beginning => ?_
    cases ceiling with
    | none => simp [depth]
    | some top =>
        rw [depth]
        split
        · rename_i above
          constructor
          · rintro long _ ⟨⟩ -
            exact List.prefix_of_prefix_length_le above beginning long
          · intro within
            exact (within top rfl above).length_le
        · rename_i aside
          constructor
          · rintro - _ ⟨⟩ above
            exact (aside above).elim
          · exact fun _ => Nat.zero_le _
  nested := (pairwise_inits start).sublist (List.drop_sublist ..)

/-- A search from a straight start goes through the span from its ceiling to its start. -/
theorem exists_span
    {search : LayerSearch}
    (rooted : search.start.rooted = true)
    (straight : ".." ∉ search.start.pieces)
    (ceilings : ∀ ceiling ∈ search.ceiling, ceiling.rooted = true ∧ ".." ∉ ceiling.pieces)
    (current : Location) :
    ∃ start ceiling directories locations,
      search.start.LeadsTo start ∧
      Option.Rel Path.LeadsTo search.ceiling ceiling ∧
      search.directories current = .ok directories ∧
      List.Forall₂ Path.LeadsTo directories locations ∧
      Spans ceiling start locations := by
  have notEmpty {path : Path} (isRooted : path.rooted = true) : path ≠ Path.empty := by
    rintro rfl
    cases isRooted
  rcases Path.exists_leadsTo rooted straight with ⟨start, isStart⟩
  have exists_ceiling : ∃ ceiling, Option.Rel Path.LeadsTo search.ceiling ceiling ∧
      search.ceiling.map (Path.movesFrom current) = ceiling.map (List.map .name) := by
    cases given : search.ceiling with
    | none => exact ⟨none, .none, rfl⟩
    | some path =>
        rcases ceilings path given with ⟨isRooted, isStraight⟩
        rcases Path.exists_leadsTo isRooted isStraight with ⟨top, isTop⟩
        exact ⟨some top, .some isTop, congrArg some (isTop.movesFrom_eq isRooted current)⟩
  rcases exists_ceiling with ⟨ceiling, isCeiling, sameCeiling⟩
  have hasCeiling : search.ceiling ≠ some Path.empty := fun given =>
    notEmpty (ceilings _ given).1 rfl
  rcases exists_directories (notEmpty rooted) hasCeiling current with ⟨directories, found⟩
  refine ⟨start, ceiling, directories, start.inits.drop (depth ceiling start), isStart,
    isCeiling, found, ?_, spans_drop_inits ceiling start⟩
  have sameComponents := map_components_directories found
  rw [sameCeiling, isStart.movesFrom_eq rooted, depth_map fun _ _ => Path.Component.name.inj,
    List.map_inits, ← List.map_drop, List.map_map, ← List.forall₂_eq_eq_eq,
    List.forall₂_map_left_iff, List.forall₂_map_right_iff] at sameComponents
  exact sameComponents

end LayerSearch

/-! ### The configuration file of a directory -/

variable {files : FileSystem} {current : Location}

/--
The configuration file of a directory: `doccer.json`, or else `doccer.yaml`, or
else `doccer.yml`.
-/
inductive ChosenFile (files : FileSystem) (current : Location) (directory : Path) :
    Option (Path × LayerFormat) → Prop
  | json
      (isJson : files.isFile current (directory.joinText "doccer.json") = true) :
      ChosenFile files current directory (some (directory.joinText "doccer.json", .json))
  | yaml
      (noJson : files.isFile current (directory.joinText "doccer.json") = false)
      (isYaml : files.isFile current (directory.joinText "doccer.yaml") = true) :
      ChosenFile files current directory (some (directory.joinText "doccer.yaml", .yaml))
  | yml
      (noJson : files.isFile current (directory.joinText "doccer.json") = false)
      (noYaml : files.isFile current (directory.joinText "doccer.yaml") = false)
      (isYml : files.isFile current (directory.joinText "doccer.yml") = true) :
      ChosenFile files current directory (some (directory.joinText "doccer.yml", .yaml))
  | nothing
      (noJson : files.isFile current (directory.joinText "doccer.json") = false)
      (noYaml : files.isFile current (directory.joinText "doccer.yaml") = false)
      (noYml : files.isFile current (directory.joinText "doccer.yml") = false) :
      ChosenFile files current directory none

theorem layerFile?_eq (files : FileSystem) (current : Location) (directory : Path) :
    layerFile? files current directory =
      if files.isFile current (directory.joinText "doccer.json") then
        some (directory.joinText "doccer.json", .json)
      else if files.isFile current (directory.joinText "doccer.yaml") then
        some (directory.joinText "doccer.yaml", .yaml)
      else if files.isFile current (directory.joinText "doccer.yml") then
        some (directory.joinText "doccer.yml", .yaml)
      else none := by
  simp only [layerFile?, layerNames, List.map_cons, List.map_nil, List.find?_cons, List.find?_nil]
  cases files.isFile current (directory.joinText "doccer.json") <;>
    cases files.isFile current (directory.joinText "doccer.yaml") <;>
    cases files.isFile current (directory.joinText "doccer.yml") <;> rfl

theorem chosenFile_iff {directory : Path} {chosen : Option (Path × LayerFormat)} :
    ChosenFile files current directory chosen ↔ layerFile? files current directory = chosen := by
  rw [layerFile?_eq]
  constructor
  · intro chosen
    cases chosen with
    | json isJson => rw [if_pos isJson]
    | yaml noJson isYaml => rw [noJson, if_neg Bool.false_ne_true, if_pos isYaml]
    | yml noJson noYaml isYml =>
        rw [noJson, if_neg Bool.false_ne_true, noYaml, if_neg Bool.false_ne_true, if_pos isYml]
    | nothing noJson noYaml noYml =>
        rw [noJson, if_neg Bool.false_ne_true, noYaml, if_neg Bool.false_ne_true, noYml,
          if_neg Bool.false_ne_true]
  · rintro rfl
    split
    · rename_i isJson
      exact .json isJson
    rename_i noJson
    rw [Bool.not_eq_true] at noJson
    split
    · rename_i isYaml
      exact .yaml noJson isYaml
    rename_i noYaml
    rw [Bool.not_eq_true] at noYaml
    split
    · rename_i isYml
      exact .yml noJson noYaml isYml
    · rename_i noYml
      rw [Bool.not_eq_true] at noYml
      exact .nothing noJson noYaml noYml

/-! ### Reading a configuration file -/

/-- The value that a text writes in a format. -/
def LayerFormat.Writes : LayerFormat → String → Value → Prop
  | .json, text, value => Value.read text = .ok value
  | .yaml, text, value => Yaml.read text = some value

/-- What reading a configuration file gives: an error that names it, nothing, or a layer. -/
inductive LayerRead (files : FileSystem) (current : Location) (path : Path) :
    LayerFormat → Except ConfigError (Option Layer) → Prop
  | unreadable
      {format : LayerFormat}
      {cause : OsError}
      (fails : files.readText current path = .error cause) :
      LayerRead files current path format (.error (.unreadable path cause))
  | invalidJson
      {text : String}
      {fault : Json.Fault}
      (isText : files.readText current path = .ok text)
      (fails : Value.read text = .error fault) :
      LayerRead files current path .json (.error (.invalidJson path fault))
  | invalidYaml
      {text : String}
      (isText : files.readText current path = .ok text)
      (fails : Yaml.read text = none) :
      LayerRead files current path .yaml (.error (.invalidYaml path))
  | notAnObject
      {format : LayerFormat}
      {text : String}
      {value : Value}
      (isText : files.readText current path = .ok text)
      (writes : format.Writes text value)
      (notNull : value ≠ .null)
      (notObject : ∀ members, value ≠ .object members) :
      LayerRead files current path format (.error (.notAnObject path))
  | null
      {format : LayerFormat}
      {text : String}
      (isText : files.readText current path = .ok text)
      (writes : format.Writes text .null) :
      LayerRead files current path format (.ok none)
  | object
      {format : LayerFormat}
      {text : String}
      {members : Json.Members}
      (isText : files.readText current path = .ok text)
      (writes : format.Writes text (.object members)) :
      LayerRead files current path format (.ok (some ⟨path, .object members⟩))

theorem LayerFormat.read_eq_ok_iff
    {format : LayerFormat}
    {path : Path}
    {text : String}
    {value : Value} :
    format.read path text = .ok value ↔ format.Writes text value := by
  cases format with
  | json => exact mapError_eq_ok_iff
  | yaml =>
      rw [LayerFormat.read, LayerFormat.Writes]
      cases Yaml.read text <;> simp

theorem LayerFormat.layerRead_of_read_eq_error
    {format : LayerFormat}
    {path : Path}
    {text : String}
    {error : ConfigError}
    (isText : files.readText current path = .ok text)
    (fails : format.read path text = .error error) :
    LayerRead files current path format (.error error) := by
  cases format with
  | json =>
      rcases mapError_eq_error_iff.mp fails with ⟨fault, isFault, rfl⟩
      exact .invalidJson isText isFault
  | yaml =>
      rw [LayerFormat.read] at fails
      split at fails
      · cases fails
      · rename_i isNone
        cases fails
        exact .invalidYaml isText isNone

theorem layerRead_readLayer
    (files : FileSystem)
    (current : Location)
    (path : Path)
    (format : LayerFormat) :
    LayerRead files current path format (readLayer files current path format) := by
  rw [readLayer]
  cases isText : files.readText current path with
  | error cause => exact .unreadable isText
  | ok text =>
      simp only [Except.mapError, bind, Except.bind]
      cases isValue : format.read path text with
      | error error => exact LayerFormat.layerRead_of_read_eq_error isText isValue
      | ok value =>
          have writes := LayerFormat.read_eq_ok_iff.mp isValue
          cases value with
          | null => exact .null isText writes
          | object members => exact .object isText writes
          | bool | number | string | array =>
              exact .notAnObject isText writes (by simp) (by simp)

theorem readLayer_eq_iff
    {path : Path}
    {format : LayerFormat}
    {result : Except ConfigError (Option Layer)} :
    readLayer files current path format = result ↔
      LayerRead files current path format result := by
  constructor
  · rintro rfl
    exact layerRead_readLayer files current path format
  · intro reads
    rw [readLayer]
    cases reads with
    | unreadable fails => rw [fails]; rfl
    | invalidJson isText fails =>
        simp [isText, LayerFormat.read, fails, Except.mapError, bind, Except.bind]
    | invalidYaml isText fails =>
        simp [isText, LayerFormat.read, fails, Except.mapError, bind, Except.bind]
    | @notAnObject _ text value isText writes notNull notObject =>
        rw [isText]
        simp only [Except.mapError, bind, Except.bind, LayerFormat.read_eq_ok_iff.mpr writes]
        cases value with
        | null => exact (notNull rfl).elim
        | object members => exact (notObject members rfl).elim
        | bool | number | string | array => rfl
    | null isText writes =>
        rw [isText]
        simp only [Except.mapError, bind, Except.bind, LayerFormat.read_eq_ok_iff.mpr writes]
        rfl
    | object isText writes =>
        rw [isText]
        simp only [Except.mapError, bind, Except.bind, LayerFormat.read_eq_ok_iff.mpr writes]
        rfl

/-- The directories contribute what the reading of their configuration files gives. -/
theorem layersOf_eq (directories : List Path) :
    layersOf files current directories = (do
      let read ← (directories.map (layerFile? files current)).reduceOption.mapM
        fun file => readLayer files current file.1 file.2
      pure read.reduceOption) := by
  induction directories with
  | nil => rfl
  | cons directory directories induction =>
      rw [layersOf, layerOf, induction, List.map_cons]
      cases layerFile? files current directory with
      | none =>
          rw [List.reduceOption_cons_of_none]
          exact bind_pure (m := Except ConfigError) _
      | some file =>
          rw [List.reduceOption_cons_of_some, List.mapM_cons]
          simp only [bind_assoc, pure_bind]
          refine bind_congr fun layer => bind_congr fun read => ?_
          cases layer with
          | none => rw [List.reduceOption_cons_of_none]; rfl
          | some layer => rw [List.reduceOption_cons_of_some]; rfl

theorem LayerSearch.merged_eq
    {search : LayerSearch}
    {directories : List Path}
    (found : search.directories current = .ok directories) :
    search.merged files current = (do
      let read ← (directories.map (layerFile? files current)).reduceOption.mapM
        fun file => readLayer files current file.1 file.2
      pure (Json.mergeLayers (read.reduceOption.map Layer.value),
        read.reduceOption.map Layer.path)) := by
  rw [merged, layers, found]
  change (layersOf files current directories >>= fun layers =>
    pure (Json.mergeLayers (layers.map Layer.value), layers.map Layer.path)) = _
  rw [layersOf_eq]
  simp only [bind_assoc, pure_bind]

/-- The file that an error is about; none if it is about the merged value. -/
def ConfigError.file? : ConfigError → Option Path
  | .unreadable path _ | .invalidJson path _ | .invalidYaml path | .notAnObject path => some path
  | .schema _ => none

theorem LayerRead.file?_eq
    {path : Path}
    {format : LayerFormat}
    {error : ConfigError}
    (reads : LayerRead files current path format (.error error)) :
    error.file? = some path := by
  cases reads <;> rfl

/--
A search from a straight start goes through the span of its ceiling and its
start, and reads the configuration files that it finds there, outermost first.
It merges what they hold, or fails with the error of the first that has one.
-/
theorem LayerSearch.merged_of_straight
    {search : LayerSearch}
    (rooted : search.start.rooted = true)
    (straight : ".." ∉ search.start.pieces)
    (ceilings : ∀ ceiling ∈ search.ceiling, ceiling.rooted = true ∧ ".." ∉ ceiling.pieces)
    (files : FileSystem)
    (current : Location) :
    ∃ start ceiling directories locations candidates,
      search.start.LeadsTo start ∧
      Option.Rel Path.LeadsTo search.ceiling ceiling ∧
      Spans ceiling start locations ∧
      search.directories current = .ok directories ∧
      List.Forall₂ Path.LeadsTo directories locations ∧
      List.Forall₂ (ChosenFile files current) directories candidates ∧
      ((∃ result, search.merged files current = .ok result) ↔
        ∀ file ∈ candidates.reduceOption,
          ∃ layer, LayerRead files current file.1 file.2 (.ok layer)) ∧
      (∀ value paths, search.merged files current = .ok (value, paths) ↔
        ∃ read,
          List.Forall₂ (fun file layer => LayerRead files current file.1 file.2 (.ok layer))
            candidates.reduceOption read ∧
          value = (read.reduceOption.map Layer.value).foldl Json.deepMerge (.object []) ∧
          paths = read.reduceOption.map Layer.path) ∧
      (∀ error, search.merged files current = .error error ↔
        ∃ outer file inner,
          candidates.reduceOption = outer ++ file :: inner ∧
          (∀ earlier ∈ outer,
            ∃ layer, LayerRead files current earlier.1 earlier.2 (.ok layer)) ∧
          LayerRead files current file.1 file.2 (.error error) ∧
          error.file? = some file.1) := by
  rcases exists_span rooted straight ceilings current with
    ⟨start, ceiling, directories, locations, isStart, isCeiling, found, lead, spans⟩
  refine ⟨start, ceiling, directories, locations,
    directories.map (layerFile? files current), isStart, isCeiling, spans, found, lead,
    ?_, ?_, ?_, ?_⟩
  · rw [List.forall₂_map_right_iff, List.forall₂_same]
    exact fun directory _ => chosenFile_iff.mpr rfl
  · simp only [merged_eq found, ← readLayer_eq_iff, ← exists_mapM_eq_ok_iff]
    constructor
    · rintro ⟨result, merged⟩
      rcases bind_eq_ok_iff.mp merged with ⟨read, done, -⟩
      exact ⟨read, done⟩
    · rintro ⟨read, done⟩
      exact ⟨_, bind_eq_ok_iff.mpr ⟨read, done, rfl⟩⟩
  · intro value paths
    simp only [merged_eq found, ← readLayer_eq_iff, bind_eq_ok_iff, mapM_eq_ok_iff]
    refine exists_congr fun read => and_congr_right fun _ => ?_
    constructor
    · rintro ⟨⟩
      exact ⟨rfl, rfl⟩
    · rintro ⟨rfl, rfl⟩
      rfl
  · intro error
    rw [merged_eq found, bind_eq_error_iff, mapM_eq_error_iff]
    constructor
    · rintro (⟨outer, file, inner, cut, passed, failed⟩ | ⟨_, _, ⟨⟩⟩)
      refine ⟨outer, file, inner, cut, ?_, ?_⟩
      · intro earlier inOuter
        rcases passed earlier inOuter with ⟨layer, isLayer⟩
        exact ⟨layer, readLayer_eq_iff.mp isLayer⟩
      · have reads := readLayer_eq_iff.mp failed
        exact ⟨reads, reads.file?_eq⟩
    · rintro ⟨outer, file, inner, cut, passed, failed, -⟩
      refine .inl ⟨outer, file, inner, cut, ?_, readLayer_eq_iff.mpr failed⟩
      intro earlier inOuter
      rcases passed earlier inOuter with ⟨layer, isLayer⟩
      exact ⟨layer, readLayer_eq_iff.mpr isLayer⟩

/--
A site with an invalid file above it and an empty layer in it, and with two files
for its documents and two for its guide.
-/
def guideFiles : FileSystem :=
  ⟨[(["doccer.json"], .file (.text "[") false),
    (["site"], .directory),
    (["site", "doccer.yml"], .file (.text "null") false),
    (["site", "docs"], .directory),
    (["site", "docs", "doccer.yaml"], .file (.text "name: docs\nreadme: intro.md\n") false),
    (["site", "docs", "doccer.yml"], .file (.text "- broken") false),
    (["site", "docs", "guide"], .directory),
    (["site", "docs", "guide", "doccer.json"], .file (.text "\x7b\"name\": \"guide\"\x7d") false),
    (["site", "docs", "guide", "doccer.yaml"], .file (.text "- broken") false)]⟩

/-- A search for the layers of the guide, up to the site. -/
def guideSearch : LayerSearch :=
  { start := .ofText "/site//docs/./guide/", ceiling := some (.ofText "/site/") }

/--
The guide's name wins over that of the documents, whose readme stays.  Neither the
file above the site counts, nor the second file of a directory.
-/
theorem LayerSearch.merged_of_straight_guide :
    guideSearch.start.rooted = true ∧
      ".." ∉ guideSearch.start.pieces ∧
      (∀ ceiling ∈ guideSearch.ceiling, ceiling.rooted = true ∧ ".." ∉ ceiling.pieces) ∧
      guideSearch.merged guideFiles [] = .ok
        (.object [("name", .string "guide"), ("readme", .string "intro.md")],
          [⟨true, ["site", "docs", "doccer.yaml"]⟩,
            ⟨true, ["site", "docs", "guide", "doccer.json"]⟩]) ∧
      ∃ start ceiling directories locations candidates,
        guideSearch.start.LeadsTo start ∧
        Option.Rel Path.LeadsTo guideSearch.ceiling ceiling ∧
        Spans ceiling start locations ∧
        List.Forall₂ Path.LeadsTo directories locations ∧
        List.Forall₂ (ChosenFile guideFiles []) directories candidates ∧
        ∀ file ∈ candidates.reduceOption,
          ∃ layer, LayerRead guideFiles [] file.1 file.2 (.ok layer) := by
  have rooted : guideSearch.start.rooted = true := by decide +kernel
  have straight : ".." ∉ guideSearch.start.pieces := by decide +kernel
  have ceilings : ∀ ceiling ∈ guideSearch.ceiling,
      ceiling.rooted = true ∧ ".." ∉ ceiling.pieces := by
    decide +kernel
  have merged : guideSearch.merged guideFiles [] = .ok
      (.object [("name", .string "guide"), ("readme", .string "intro.md")],
        [⟨true, ["site", "docs", "doccer.yaml"]⟩,
          ⟨true, ["site", "docs", "guide", "doccer.json"]⟩]) := by
    decide +kernel
  rcases merged_of_straight rooted straight ceilings guideFiles [] with
    ⟨start, ceiling, directories, locations, candidates, isStart, isCeiling, spans, -, lead,
      chosen, succeeds_iff, -, -⟩
  exact ⟨rooted, straight, ceilings, merged, start, ceiling, directories, locations, candidates,
    isStart, isCeiling, spans, lead, chosen, succeeds_iff.mp ⟨_, merged⟩⟩

end Concordance
