import Concordance.Config.Overrides
import Concordance.Proofs.Config.Discovery
import Concordance.Proofs.Config.Effective
import Concordance.Proofs.Path.Absolute
import Concordance.Proofs.Path.Written

/-!
# Directories from the environment

The configuration of a directory is what its layers give, and the variables of
the environment replace two of its paths.  Three places see paths from the
directory: it is made absolute first, the search for layers makes it absolute
once more, and the variables are seen from it.  As the second time changes
nothing, all three mean the same base (`LayerSearch.load_congr`).

So each of the two paths is the base joined with the value of its own
variable, or else with what the layers give for it (`Config.Chosen`); every
path is absolute, and all other settings are those of the layers alone
(`Config.ofDirectory_of_load`).
-/

namespace Concordance

open Decode (Taken)
open Json (Value Members)

/-! ### What the layers give -/

theorem exists_object_of_layersOf
    {files : FileSystem}
    {current : Location}
    {directories : List Path}
    {layers : List Layer}
    (done : layersOf files current directories = .ok layers) :
    ∀ layer ∈ layers, ∃ members, layer.value = .object members := by
  induction directories generalizing layers with
  | nil =>
      cases done
      exact nofun
  | cons directory directories induction =>
      rcases bind_eq_ok_iff.mp done with ⟨layer, here, done⟩
      rcases bind_eq_ok_iff.mp done with ⟨rest, others, ⟨⟩⟩
      cases layer with
      | none => exact induction others
      | some layer =>
          refine List.forall_mem_cons.mpr ⟨?_, induction others⟩
          rw [layerOf] at here
          split at here
          · cases readLayer_eq_iff.mp here
            exact ⟨_, rfl⟩
          · cases here

namespace LayerSearch

variable {files : FileSystem} {current : Location}

/-- Layers are merged to an object with its keys in order. -/
theorem exists_merged_eq_object
    {search : LayerSearch}
    {merged : Value}
    {paths : List Path}
    (found : search.merged files current = .ok (merged, paths)) :
    ∃ members : Members, merged = .object members ∧ members.Sorted := by
  rcases bind_eq_ok_iff.mp found with ⟨layers, isLayers, ⟨⟩⟩
  rcases bind_eq_ok_iff.mp isLayers with ⟨directories, -, done⟩
  apply Json.exists_foldl_deepMerge_eq_object Members.sorted_nil
  intro value inValues
  rcases List.mem_map.mp inValues with ⟨layer, inLayers, rfl⟩
  exact exists_object_of_layersOf done layer inLayers

theorem load_eq_ok_iff
    {search : LayerSearch}
    {config : Config} :
    search.load files current = .ok config ↔
      ∃ start merged paths decoded,
        absolute current search.start = .ok start ∧
        search.merged files current = .ok (merged, paths) ∧
        Config.decode merged = .ok decoded ∧ decoded.resolve start = config := by
  simp only [load, bind_eq_ok_iff]
  constructor
  · rintro ⟨start, isStart, ⟨merged, paths⟩, isMerged, decoded, isDecoded, ⟨⟩⟩
    exact ⟨start, merged, paths, decoded, isStart, isMerged, isDecoded, rfl⟩
  · rintro ⟨start, merged, paths, decoded, isStart, isMerged, isDecoded, rfl⟩
    exact ⟨start, isStart, (merged, paths), isMerged, decoded, isDecoded, rfl⟩

/-- Of the start of a search only its absolute form matters. -/
theorem load_congr
    {first second : Path}
    (same : absolute current first = absolute current second)
    (files : FileSystem) :
    load ⟨first, none⟩ files current = load ⟨second, none⟩ files current := by
  simp only [load, merged, layers, directories, same]

end LayerSearch

/-! ### What the environment gives -/

/--
A path of a configuration: the value of a variable, if it is set and not empty,
or else the setting that is read from what the layers have for it, or its
default; seen from a base.
-/
inductive Config.Chosen
    (environment : Environment)
    (key : String)
    (base : Path)
    (default : Path)
    (found : Option Value) : Path → Prop where
  | given {text : String}
      (set : environment.bindings.lookup key = some text)
      (nonempty : text ≠ "") :
      Chosen environment key base default found (base.join (Path.ofText text))
  | layered {setting : Path}
      (unset : ∀ text, environment.bindings.lookup key = some text → text = "")
      (taken : Taken Decode.path default found setting) :
      Chosen environment key base default found (base.join setting)

theorem Config.chosen_path?
    {default setting : Path}
    {found : Option Value}
    (taken : Taken Decode.path default found setting)
    (environment : Environment)
    (key : String)
    (base : Path) :
    Chosen environment key base default found
      ((environment.path? key base).getD (base.join setting)) := by
  rw [Environment.path?]
  split
  · rename_i unset
    exact .layered (fun text set => by rw [unset] at set; cases set) taken
  · rename_i isEmpty
    exact .layered (fun text set => by rw [isEmpty] at set; exact (Option.some.inj set).symm) taken
  · rename_i text nonempty set
    exact .given set nonempty

/-- The variable and the layers leave no choice. -/
theorem Config.Chosen.unique
    {environment : Environment}
    {key : String}
    {base default first second : Path}
    {found : Option Value}
    (isFirst : Chosen environment key base default found first)
    (isSecond : Chosen environment key base default found second) :
    first = second := by
  cases isFirst with
  | given set nonempty =>
      cases isSecond with
      | given other _ => rw [Option.some.inj (set.symm.trans other)]
      | layered unset _ => exact (nonempty (unset _ set)).elim
  | layered unset taken =>
      cases isSecond with
      | given set nonempty => exact (nonempty (unset _ set)).elim
      | layered _ other => rw [taken.unique other]

theorem Config.Chosen.rooted
    {environment : Environment}
    {key : String}
    {base default chosen : Path}
    {found : Option Value}
    (isChosen : Chosen environment key base default found chosen)
    (rooted : base.rooted = true) :
    chosen.rooted = true := by
  cases isChosen with
  | given => exact Path.rooted_join rooted _
  | layered => exact Path.rooted_join rooted _

namespace Config

/-- The layers of a directory are those of its absolute form; the environment is put on top. -/
theorem ofDirectory_eq
    {current : Location}
    (plain : Path.Plain current)
    {directory base : Path}
    (isBase : Path.absolute? ⟨true, current⟩ directory = some base)
    (files : FileSystem)
    (environment : Environment) :
    ofDirectory files current environment directory =
      (override · environment base) <$>
        (LayerSearch.load ⟨directory, none⟩ files current).mapError (.unloadable base) := by
  have absolute : directory.absolute current = .ok base := by rw [Path.absolute, isBase]
  -- The search makes the base absolute once more, which leaves it as it is.
  have sameStart : LayerSearch.absolute current base = LayerSearch.absolute current directory := by
    rw [LayerSearch.absolute_eq_ok_iff.mpr (Path.absolute?_absolute? plain isBase),
      LayerSearch.absolute_eq_ok_iff.mpr isBase]
  rw [ofDirectory, absolute, ← LayerSearch.load_congr sameStart]
  rfl

/--
The configuration of a directory is loaded exactly if its layers are.  Its two
directories are seen from the absolute form of the directory, whether they come
from their variables or from the layers; every path is absolute; and all else
is what the layers give, whatever the variables hold.  The pieces of the current
directory are names, so none of them is empty or a dot.
-/
theorem ofDirectory_of_load
    {current : Location}
    (plain : Path.Plain current)
    {directory : Path}
    (notEmpty : directory ≠ Path.empty)
    (files : FileSystem)
    (environment : Environment) :
    ∃ base, directory.absolute current = .ok base ∧ base.rooted = true ∧
      (∀ error, LayerSearch.load ⟨directory, none⟩ files current = .error error →
        ofDirectory files current environment directory = .error (.unloadable base error)) ∧
      ∀ loaded, LayerSearch.load ⟨directory, none⟩ files current = .ok loaded →
        ∃ config merged paths,
          ofDirectory files current environment directory = .ok config ∧
          LayerSearch.merged ⟨directory, none⟩ files current = .ok (merged, paths) ∧
          Chosen environment outDirVariable base (.ofText "docs") (merged.at? ["outDir"])
            config.outDir ∧
          Chosen environment workDirVariable base (.ofText ".doccer") (merged.at? ["workDir"])
            config.workDir ∧
          { config with outDir := loaded.outDir, workDir := loaded.workDir } = loaded ∧
          config.outDir.rooted = true ∧ config.workDir.rooted = true ∧
          ∀ readme ∈ config.readme, readme.rooted = true := by
  rcases Path.exists_absolute?_iff.mpr notEmpty with ⟨base, isBase⟩
  have rooted : base.rooted = true := by
    rcases Path.moves_absolute? isBase with ⟨pieces, rfl, -⟩
    rfl
  have overridden := ofDirectory_eq plain isBase files environment
  refine ⟨base, by rw [Path.absolute, isBase], rooted, ?_, ?_⟩
  · intro error failed
    rw [overridden, failed]
    rfl
  · intro loaded isLoaded
    rw [isLoaded] at overridden
    rcases LayerSearch.load_eq_ok_iff.mp isLoaded with
      ⟨start, merged, paths, decoded, isStart, isMerged, isDecoded, rfl⟩
    rw [LayerSearch.absolute_eq_ok_iff.mpr isBase] at isStart
    cases isStart
    rcases LayerSearch.exists_merged_eq_object isMerged with ⟨members, rfl, sorted⟩
    have read := (decode_object_eq_ok_iff sorted.distinct).mp isDecoded
    have outDir := chosen_path? (Value.at?_key members "outDir" ▸ read.outDir) environment
      outDirVariable base
    have workDir := chosen_path? (Value.at?_key members "workDir" ▸ read.workDir) environment
      workDirVariable base
    refine ⟨_, _, paths, overridden, isMerged, outDir, workDir, rfl, outDir.rooted rooted,
      workDir.rooted rooted, ?_⟩
    intro readme isReadme
    rcases Option.map_eq_some_iff.mp isReadme with ⟨given, -, rfl⟩
    exact Path.rooted_join rooted given

/-- A site in a home directory, with its configuration. -/
def siteFiles : FileSystem :=
  ⟨[(["home"], .directory),
    (["home", "site"], .directory),
    (["home", "site", "doccer.json"], .file (.text
      "\x7b\"workDir\": \"cache\", \"readme\": \"notes.md\"\x7d") false)]⟩

/-- An environment that gives the output directory, and an empty working directory. -/
def siteEnvironment : Environment :=
  ⟨[(outDirVariable, "public"), (workDirVariable, "")]⟩

/-- The output directory comes from its variable and the working directory from the layer. -/
theorem ofDirectory_of_load_site :
    Path.Plain ["home"] ∧ Path.ofText "./site/" ≠ Path.empty ∧
      ∃ config,
        ofDirectory siteFiles ["home"] siteEnvironment (.ofText "./site/") = .ok config ∧
        config.outDir = .ofText "/home/site/public" ∧
        config.workDir = .ofText "/home/site/cache" ∧
        config.readme = some (.ofText "/home/site/notes.md") := by
  have plain : Path.Plain ["home"] := by decide
  have notEmpty : Path.ofText "./site/" ≠ Path.empty := by decide +kernel
  have absolute : (Path.ofText "./site/").absolute ["home"] = .ok (.ofText "/home/site/") := by
    decide +kernel
  have loaded : LayerSearch.load ⟨.ofText "./site/", none⟩ siteFiles ["home"] =
      .ok {
        outDir := .ofText "/home/site/docs"
        workDir := .ofText "/home/site/cache"
        readme := some (.ofText "/home/site/notes.md") } := by
    decide +kernel
  have merged : LayerSearch.merged ⟨.ofText "./site/", none⟩ siteFiles ["home"] =
      .ok (.object [("readme", .string "notes.md"), ("workDir", .string "cache")],
        [.ofText "/home/site/doccer.json"]) := by
    decide +kernel
  rcases ofDirectory_of_load plain notEmpty siteFiles siteEnvironment with
    ⟨base, isBase, -, -, loads⟩
  rw [absolute] at isBase
  cases isBase
  rcases loads _ loaded with ⟨config, _, _, isConfig, isMerged, outDir, workDir, others, -⟩
  rw [merged] at isMerged
  cases isMerged
  refine ⟨plain, notEmpty, config, isConfig, ?_, ?_, congrArg readme others⟩
  · rw [outDir.unique (.given rfl (by decide))]
    decide +kernel
  · rw [workDir.unique (.layered (fun _ set => (Option.some.inj set).symm) (.read rfl))]
    decide +kernel

end Config

end Concordance
