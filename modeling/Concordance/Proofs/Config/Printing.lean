import Concordance.Proofs.Config.Discovery
import Concordance.Proofs.Config.Effective
import Concordance.Proofs.Config.Repositories
import Concordance.Proofs.FileSystem.Writing
import Concordance.Proofs.Json.Documents
import Concordance.Proofs.Json.Grammar
import Concordance.Proofs.Path.Written

/-!
# Printing a configuration

A configuration is printed with a member for every field, so when it is read
again no default is filled in (`Config.decode_sorted_value`).  If its paths
were seen from a directory they start at the root, and seen from a directory
again they stay as they are (`Config.resolve_resolve`).  A printed
configuration that is saved in a directory is therefore what a search loads
there, if it finds no other file (`Config.load_printed`).
-/

namespace Concordance

open Json (Value Members)

/-! ### Values without numbers -/

/-- Whether a value can be printed and read again: it has whole numbers and is not too deep. -/
structure Json.Value.Printable (limit : Nat) (value : Value) : Prop where
  integral : value.Integral
  nesting_le : value.nesting ≤ limit

namespace Json.Value

variable {limit : Nat}

theorem printable_null : Value.null.Printable limit :=
  ⟨.null, Nat.zero_le limit⟩

theorem printable_bool (value : Bool) : (Value.bool value).Printable limit :=
  ⟨.bool value, Nat.zero_le limit⟩

theorem printable_string (text : String) : (Value.string text).Printable limit :=
  ⟨.string text, Nat.zero_le limit⟩

theorem printable_array
    {items : List Value}
    (each : ∀ item ∈ items, item.Printable limit) :
    (Value.array items).Printable (limit + 1) where
  integral := .array fun item inItems => (each item inItems).integral
  nesting_le := nesting_array_le_iff.mpr fun item inItems => (each item inItems).nesting_le

theorem printable_object
    {members : Members}
    (each : ∀ member ∈ members, member.2.Printable limit) :
    (Value.object members).Printable (limit + 1) where
  integral := .object fun member inMembers => (each member inMembers).integral
  nesting_le :=
    nesting_object_le_iff.mpr fun member inMembers => (each member inMembers).nesting_le

theorem printable_texts (texts : List String) :
    (Value.array (texts.map .string)).Printable (limit + 1) := by
  refine printable_array fun item inItems => ?_
  rcases List.mem_map.mp inItems with ⟨text, -, rfl⟩
  exact printable_string text

theorem sorted_texts (texts : List String) :
    (Value.array (texts.map .string)).sorted = .array (texts.map .string) := by
  rw [Value.sorted, sortedItems_eq_map, List.map_map]
  rfl

/-- A key of an object with distinct keys has its value, sorted, once the object is sorted. -/
theorem find?_sorted
    {members : Members}
    (distinct : members.Distinct)
    (key : String) :
    (Members.ofList (Value.sortedMembers members)).find? key =
      (members.find? key).map Value.sorted := by
  rw [distinct.sortedMembers.find?_ofList, Members.find?_sortedMembers]

/-- Blanks behind a printed value do not matter. -/
theorem read_pretty_append_blank
    {value : Value}
    (printable : value.Printable Json.depthLimit)
    {blank : String}
    (isBlank : Blank blank.toList) :
    Value.read (value.pretty ++ blank) = .ok value.sorted := by
  refine read_of_tokens ?_ printable.nesting_le
  have padded := tokens_eq_iff_padded.mp (tokens_pretty printable.integral)
  rw [String.toList_append, tokens_eq_iff_padded]
  exact padded.append_blank isBlank

end Json.Value

/-! ### Records as they are printed -/

theorem Decode.list_texts (texts : List String) :
    Decode.list Decode.text (Value.array (texts.map .string)).sorted = .ok texts :=
  Decode.list_eq_ok_iff.mpr
    ⟨_, Value.sorted_texts texts, Decode.mapM_text_eq_ok_iff.mpr rfl⟩

theorem Decode.nullable_text (setting : Option String) :
    Decode.nullable Decode.text (setting.elim Value.null .string).sorted = .ok setting := by
  cases setting <;> rfl

namespace CommandSpec

theorem printable_value (spec : CommandSpec) (limit : Nat) :
    spec.value.Printable (limit + 2) := by
  refine Value.printable_object ?_
  simp only [List.forall_mem_cons]
  exact ⟨Value.printable_string _, Value.printable_texts _, List.forall_mem_nil _⟩

/-- A command is read as it is printed. -/
theorem decode_sorted_value (spec : CommandSpec) : decode spec.value.sorted = .ok spec := by
  rw [value, Value.sorted, decode_object_eq_ok_iff (Members.sorted_ofList _).distinct]
  constructor
  all_goals rw [Value.find?_sorted (by simp [Members.Distinct])]
  · rfl
  · exact .read (Decode.list_texts spec.args)

end CommandSpec

namespace Repository

theorem printable_value (repository : Repository) (limit : Nat) :
    repository.value.Printable (limit + 2) := by
  have reference : (repository.pinned.elim Value.null .string).Printable (limit + 1) := by
    cases repository.pinned with
    | none => exact Value.printable_null
    | some text => exact Value.printable_string text
  refine Value.printable_object ?_
  simp only [List.forall_mem_cons]
  exact ⟨Value.printable_string _, Value.printable_string _, reference,
    Value.printable_texts _, Value.printable_texts _, Value.printable_bool _,
    List.forall_mem_nil _⟩

/-- A repository is read as it is printed. -/
theorem decode_sorted_value (repository : Repository) :
    decode repository.value.sorted = .ok repository := by
  rw [value, Value.sorted, decode_object_eq_ok_iff (Members.sorted_ofList _).distinct]
  constructor
  all_goals rw [Value.find?_sorted (by simp [Members.Distinct])]
  · rfl
  · rfl
  · exact .read (Decode.nullable_text repository.pinned)
  · exact .read (Decode.list_texts repository.entryPoints)
  · exact .read (Decode.list_texts repository.exclude)
  · exact .read rfl

end Repository

namespace Config

theorem printable_value (config : Config) (limit : Nat) :
    config.value.Printable (limit + 4) := by
  have name : (config.name.elim Value.null .string).Printable (limit + 3) := by
    cases config.name with
    | none => exact Value.printable_null
    | some text => exact Value.printable_string text
  have readme : (config.readme.elim Value.null pathValue).Printable (limit + 3) := by
    cases config.readme with
    | none => exact Value.printable_null
    | some path => exact Value.printable_string path.text
  have repositories :
      (Value.array (config.repositories.map Repository.value)).Printable (limit + 3) := by
    refine Value.printable_array fun item inItems => ?_
    rcases List.mem_map.mp inItems with ⟨repository, -, rfl⟩
    exact repository.printable_value limit
  refine Value.printable_object ?_
  simp only [List.forall_mem_cons]
  exact ⟨Value.printable_string _, Value.printable_string _, name, readme,
    Value.printable_string _, Value.printable_string _, Value.printable_string _,
    config.install.printable_value _, config.compiler.printable_value _, repositories,
    List.forall_mem_nil _⟩

/-- Whether every path of a configuration is one that some text writes. -/
structure Written (config : Config) : Prop where
  outDir : config.outDir.Written
  workDir : config.workDir.Written
  readme : ∀ path ∈ config.readme, path.Written

theorem path_sorted_pathValue {path : Path} (written : path.Written) :
    Decode.path (pathValue path).sorted = .ok path :=
  congrArg Except.ok written.ofText_text

theorem choice_policyWord (policy : Index.MarkerPolicy) :
    Decode.choice policyWords (Value.string (policyWord policy)).sorted = .ok policy := by
  cases policy <;> decide

theorem choice_layoutWord (layout : Index.PageLayout) :
    Decode.choice layoutWords (Value.string (layoutWord layout)).sorted = .ok layout := by
  cases layout <;> decide

theorem nullable_path_sorted
    {readme : Option Path}
    (written : ∀ path ∈ readme, path.Written) :
    Decode.nullable Decode.path (readme.elim Value.null pathValue).sorted = .ok readme := by
  cases readme with
  | none => rfl
  | some path =>
      change Except.ok (some (Path.ofText path.text)) = _
      rw [(written path rfl).ofText_text]

theorem list_sorted_repositories (repositories : List Repository) :
    Decode.list Repository.decode (Value.array (repositories.map Repository.value)).sorted =
      .ok repositories := by
  rw [Value.sorted, Value.sortedItems_eq_map, List.map_map, Decode.list]
  rw [mapM_eq_ok_iff, List.forall₂_map_left_iff, List.forall₂_same]
  exact fun repository _ => repository.decode_sorted_value

/-- A configuration is read as it is printed, every field from what was printed for it. -/
theorem decode_sorted_value
    {config : Config}
    (written : config.Written) :
    decode config.value.sorted = .ok config := by
  rw [value, Value.sorted, decode_object_eq_ok_iff (Members.sorted_ofList _).distinct]
  constructor
  all_goals rw [Value.find?_sorted (by simp [Members.Distinct])]
  · exact .read (path_sorted_pathValue written.outDir)
  · exact .read (path_sorted_pathValue written.workDir)
  · exact .read (Decode.nullable_text config.name)
  · exact .read (nullable_path_sorted written.readme)
  · exact .read rfl
  · exact .read (choice_policyWord config.markerPolicy)
  · exact .read (choice_layoutWord config.pageLayout)
  · exact .read config.install.decode_sorted_value
  · exact .read config.compiler.decode_sorted_value
  · exact .read (list_sorted_repositories config.repositories)

/-! ### Paths seen from a directory -/

theorem Written.resolve
    {config : Config}
    (written : config.Written)
    {base : Path}
    (writtenBase : base.Written)
    (rooted : base.rooted = true) :
    (config.resolve base).Written where
  outDir := writtenBase.join rooted written.outDir
  workDir := writtenBase.join rooted written.workDir
  readme := by
    intro path isReadme
    rcases Option.map_eq_some_iff.mp isReadme with ⟨given, isGiven, rfl⟩
    exact writtenBase.join rooted (written.readme given isGiven)

/-- Paths that were seen from a directory are not changed by being seen from another one. -/
theorem resolve_resolve
    (config : Config)
    {base : Path}
    (rooted : base.rooted = true)
    (other : Path) :
    (config.resolve base).resolve other = config.resolve base := by
  have joined (path : Path) : other.join (base.join path) = base.join path :=
    Path.join_of_rooted (Path.rooted_join rooted path) other
  have readme : (config.readme.map base.join).map other.join = config.readme.map base.join := by
    rw [Option.map_map]
    exact congrArg (config.readme.map ·) (funext joined)
  rw [resolve, resolve, joined, joined, readme]

end Config

/-! ### Loading what was printed -/

namespace LayerSearch

theorem exists_upTo_ancestors (ceiling : Option Path) (path : Path) :
    ∃ above, upTo ceiling path.ancestors = path :: above := by
  rw [Path.ancestors]
  split
  all_goals
    rw [upTo]
    split
    · exact ⟨[], rfl⟩
    · exact ⟨_, rfl⟩

/-- The last directory of a search is its start. -/
theorem exists_outer_directories
    {search : LayerSearch}
    {current : Location}
    {directories : List Path}
    (found : search.directories current = .ok directories) :
    ∃ outer start, directories = outer ++ [start] ∧
      Path.absolute? ⟨true, current⟩ search.start = some start := by
  rcases directories_eq_ok found with ⟨pieces, ceiling, isStart, -, -, rfl⟩
  rcases exists_upTo_ancestors (ceiling.map fun top => ⟨true, top⟩) ⟨true, pieces⟩ with
    ⟨above, isSearched⟩
  refine ⟨above.reverse, ⟨true, pieces⟩, ?_, isStart⟩
  rw [isSearched, List.reverse_cons]

end LayerSearch

namespace FileSystem

variable {files : FileSystem} {current : Location}

/-- Made absolute, a path from the root enters the same directory. -/
theorem Enters.absolute
    {base start : Path}
    {directory : Location}
    (enters : files.Enters current base directory)
    (rooted : base.rooted = true)
    (isStart : Path.absolute? ⟨true, current⟩ base = some start) :
    files.Enters current start directory := by
  rcases Path.moves_absolute? isStart with ⟨pieces, rfl, sameMoves, known⟩
  rw [Path.movesFrom, if_pos rooted, List.nil_append] at sameMoves
  have entered := enters.entered
  rw [startOf, if_pos rooted, ← sameMoves] at entered
  refine ⟨?_, rfl, entered⟩
  intro piece inPieces
  rcases known piece inPieces with rfl | ⟨relative, -⟩ | inBase
  · simp
  · rw [rooted] at relative
    cases relative
  · exact enters.zeroFree piece inBase

end FileSystem

section

variable {files : FileSystem} {current : Location}

theorem fileName_doccerJson : FileSystem.FileName "doccer.json" := by
  decide +kernel

/-- A file of the first name is the configuration file of its directory. -/
theorem layerFile?_of_readText
    {directory : Path}
    {text : String}
    (isText : files.readText current (directory.joinText "doccer.json") = .ok text) :
    layerFile? files current directory = some (directory.joinText "doccer.json", .json) := by
  rcases FileSystem.readText_eq_ok_iff.mp isText with ⟨location, executable, resolved⟩
  have isFile : files.isFile current (directory.joinText "doccer.json") = true := by
    rw [FileSystem.isFile, FileSystem.find?, resolved]
  exact chosenFile_iff.mp (.json isFile)

/-- The only file that a search finds gives the configuration, if it holds an object. -/
theorem LayerSearch.load_of_only
    {search : LayerSearch}
    {outer : List Path}
    {start : Path}
    (found : search.directories current = .ok (outer ++ [start]))
    (isStart : Path.absolute? ⟨true, current⟩ search.start = some start)
    (only : ∀ directory ∈ outer, layerFile? files current directory = none)
    {text : String}
    (isText : files.readText current (start.joinText "doccer.json") = .ok text)
    {members : Members}
    (isObject : Value.read text = .ok (.object members))
    {config : Config}
    (decoded : Config.decode (Json.deepMerge (.object []) (.object members)) = .ok config) :
    search.load files current = .ok (config.resolve start) := by
  have candidates : ((outer ++ [start]).map (layerFile? files current)).reduceOption =
      [(start.joinText "doccer.json", .json)] := by
    have nothing : (outer.map (layerFile? files current)).reduceOption = [] := by
      rw [List.reduceOption, List.filterMap_map]
      exact List.filterMap_eq_nil_iff.mpr only
    rw [List.map_append, List.reduceOption_append, nothing, List.map_singleton,
      layerFile?_of_readText isText]
    rfl
  have layer : readLayer files current (start.joinText "doccer.json") .json =
      .ok (some ⟨start.joinText "doccer.json", .object members⟩) :=
    readLayer_eq_iff.mpr (.object isText isObject)
  have merged : search.merged files current =
      .ok (Json.deepMerge (.object []) (.object members),
        [start.joinText "doccer.json"]) := by
    rw [merged_eq found, candidates]
    simp only [List.mapM_cons, layer]
    rfl
  rw [load, absolute_eq_ok_iff.mpr isStart, merged]
  change (Config.decode _ >>= fun config => pure (config.resolve start)) = _
  rw [decoded]
  rfl

end

/--
A configuration whose paths have been seen from a directory is a fixed point of
printing and loading.  Its printed text is read as an object that merging leaves
alone and that gives the configuration back, with nothing left to resolve; and
saved in that directory the text is what a search from there loads, whatever its
ceiling, if it finds no other configuration file on the way.
-/
theorem Config.load_printed
    {config : Config}
    (written : config.Written)
    {base : Path}
    (writtenBase : base.Written)
    (rooted : base.rooted = true) :
    ∃ members,
      (∀ blank : String, Json.Blank blank.toList →
        Value.read ((config.resolve base).value.pretty ++ blank) = .ok (.object members)) ∧
      Json.deepMerge (.object []) (.object members) = .object members ∧
      decode (.object members) = .ok (config.resolve base) ∧
      (config.resolve base).resolve base = config.resolve base ∧
      ∀ (files : FileSystem) (current : Location) (ceiling : Option Path) (blank : String),
        Json.Blank blank.toList →
        files.readText current (base.joinText "doccer.json") =
          .ok ((config.resolve base).value.pretty ++ blank) →
        ceiling ≠ some Path.empty →
        ∃ outer start,
          LayerSearch.directories ⟨base, ceiling⟩ current = .ok (outer ++ [start]) ∧
          ((∀ directory ∈ outer, ChosenFile files current directory none) →
            LayerSearch.load ⟨base, ceiling⟩ files current = .ok (config.resolve base)) := by
  have decoded := decode_sorted_value (written.resolve writtenBase rooted)
  have read {blank : String} (isBlank : Json.Blank blank.toList) :=
    Value.read_pretty_append_blank ((config.resolve base).printable_value 123) isBlank
  have merged : Json.deepMerge (.object []) (config.resolve base).value.sorted =
      (config.resolve base).value.sorted :=
    Json.deepMerge_empty (Members.sorted_ofList _)
  refine ⟨_, fun blank => read, merged, decoded, config.resolve_resolve rooted base, ?_⟩
  intro files current ceiling blank isBlank saved hasCeiling
  have hasStart : base ≠ Path.empty := by
    rintro rfl
    cases rooted
  let search : LayerSearch := ⟨base, ceiling⟩
  rcases search.exists_directories hasStart hasCeiling current with ⟨directories, found⟩
  rcases LayerSearch.exists_outer_directories found with ⟨outer, start, rfl, isStart⟩
  refine ⟨outer, start, found, fun only => ?_⟩
  have nothing : ∀ directory ∈ outer, layerFile? files current directory = none := by
    intro directory inOuter
    exact chosenFile_iff.mp (only directory inOuter)
  have savedAtStart : files.readText current (start.joinText "doccer.json") =
      .ok ((config.resolve base).value.pretty ++ blank) := by
    rcases (FileSystem.readText_joinText_iff fileName_doccerJson).mp saved with
      ⟨directory, executable, enters, isFile⟩
    exact (FileSystem.readText_joinText_iff fileName_doccerJson).mpr
      ⟨directory, executable, enters.absolute rooted isStart, isFile⟩
  rw [LayerSearch.load_of_only found isStart nothing savedAtStart (read isBlank)
    (merged ▸ decoded), config.resolve_resolve rooted start]

/-- A configuration with relative paths, and a repository with everything but a version. -/
def manualConfig : Config where
  outDir := .ofText "out/"
  readme := some (.ofText "/srv/README.md")
  markerPolicy := .reject
  repositories :=
    [{ name := "core", url := "git:core", entryPoints := [], exclude := ["*\"quoted\"*"]
       install := false }]

/-- The directory of a manual, with its printed configuration on a line of its own. -/
def manualFiles : FileSystem :=
  ⟨[(["manual"], .directory),
    (["manual", "doccer.json"],
      .file (.text ((manualConfig.resolve (.ofText "/manual")).value.pretty ++ "\n")) false)]⟩

/-- The manual's configuration is loaded as it was printed. -/
theorem Config.load_printed_manual :
    manualConfig.Written ∧
      (Path.ofText "/manual").Written ∧
      (Path.ofText "/manual").rooted = true ∧
      LayerSearch.load ⟨.ofText "/manual", none⟩ manualFiles [] =
        .ok (manualConfig.resolve (.ofText "/manual")) := by
  have written : manualConfig.Written := by
    refine ⟨⟨"out/", rfl⟩, ⟨".doccer", rfl⟩, ?_⟩
    rintro path ⟨⟩
    exact ⟨"/srv/README.md", rfl⟩
  have writtenBase : (Path.ofText "/manual").Written := ⟨"/manual", rfl⟩
  have rooted : (Path.ofText "/manual").rooted = true := by decide +kernel
  -- The printed text is only carried along here, never computed.
  have enters : manualFiles.Enters [] (.ofText "/manual") ["manual"] :=
    ⟨FileSystem.zeroFree_cons.mpr ⟨by decide +kernel, nofun⟩, rfl, rfl⟩
  have isFile : manualFiles.entry? (["manual"] ++ ["doccer.json"]) =
      some (.file
        (.text ((manualConfig.resolve (.ofText "/manual")).value.pretty ++ "\n")) false) :=
    rfl
  have saved := (FileSystem.readText_joinText_iff fileName_doccerJson).mpr
    ⟨["manual"], false, enters, isFile⟩
  have isBlank : Json.Blank "\n".toList := List.forall_mem_singleton.mpr rfl
  rcases load_printed written writtenBase rooted with ⟨members, -, -, -, -, loads⟩
  rcases loads manualFiles [] none "\n" isBlank saved nofun with
    ⟨outer, start, found, loaded⟩
  have directories : LayerSearch.directories ⟨.ofText "/manual", none⟩ [] =
      .ok ([⟨true, []⟩] ++ [⟨true, ["manual"]⟩]) := by
    decide +kernel
  rcases List.append_inj' (Except.ok.inj (found.symm.trans directories)) rfl with ⟨rfl, -⟩
  have only : layerFile? manualFiles [] ⟨true, []⟩ = none := by decide +kernel
  exact ⟨written, writtenBase, rooted,
    loaded (List.forall_mem_singleton.mpr (chosenFile_iff.mpr only))⟩

end Concordance
