import Concordance.Project
import Concordance.Proofs.FileSystem.Writing
import Concordance.Proofs.Json.Documents

/-!
# What project files hold

The text of a project file is read as an object that has each option under its
key and nothing else (`Options.read_text`).  Writing a project leaves the files
with other names as they were (`emit_eq_ok`, `emitRender_eq_ok`); the four
files of a build therefore stand side by side in the working directory.
-/

namespace Concordance.Project

open FileSystem (FileName Keeps)
open Json (Members Value depthLimit)

/-! ### The text of a project file -/

/-- A text, or an array of texts. -/
inductive Textual : Value → Prop
  | text (text : String) : Textual (.string text)
  | texts (texts : List String) : Textual (.array (texts.map .string))

theorem Textual.integral {value : Value} (textual : Textual value) : value.Integral := by
  cases textual with
  | text text => exact .string text
  | texts texts =>
      refine .array fun item inItems => ?_
      rcases List.mem_map.mp inItems with ⟨text, -, rfl⟩
      exact .string text

theorem Textual.canonical {value : Value} (textual : Textual value) : value.Canonical := by
  cases textual with
  | text text => exact .string text
  | texts texts =>
      refine .array fun item inItems => ?_
      rcases List.mem_map.mp inItems with ⟨text, -, rfl⟩
      exact .string text

theorem Textual.nesting_le {value : Value} (textual : Textual value) : value.nesting ≤ 1 := by
  cases textual with
  | text text => exact Nat.zero_le 1
  | texts texts =>
      rw [Value.nesting_array_le_iff]
      intro item inItems
      rcases List.mem_map.mp inItems with ⟨text, -, rfl⟩
      exact Nat.le_refl 0

namespace Options

/-- What the options set a key to. -/
def setting? (options : Options) (key : String) : Option Value :=
  if key = "entryPoints" then some (.array (options.entryPoints.map Config.pathValue))
  else if key = "entryPointStrategy" then options.strategy.map .string
  else if key = "out" then options.out.map Config.pathValue
  else if key = "json" then options.json.map Config.pathValue
  else if key = "name" then options.name.map .string
  else if key = "readme" then options.readme.map Config.pathValue
  else none

theorem find?_optionalMember (name : String) (value : Option Value) (key : String) :
    Members.find? (optionalMember name value) key = if key = name then value else none := by
  cases value with
  | none => exact (ite_self none).symm
  | some value => exact Members.find?_cons name value [] key

theorem sublist_keys_optionalMember (name : String) (value : Option Value) :
    ((optionalMember name value).map Prod.fst).Sublist [name] := by
  cases value with
  | none => exact List.nil_sublist _
  | some value => exact List.Sublist.refl _

theorem textual_of_mem_optionalMember
    {name : String}
    {value : Option Value}
    (textual : ∀ given ∈ value, Textual given) :
    ∀ member ∈ optionalMember name value, Textual member.2 := by
  cases value with
  | none => exact nofun
  | some value => exact List.forall_mem_singleton.mpr (textual value rfl)

theorem exists_value_eq (options : Options) :
    ∃ members : Members, options.value = .object members ∧
      members.Distinct ∧
      (∀ key, Members.find? members key = options.setting? key) ∧
      ∀ member ∈ members, Textual member.2 := by
  have string (value : Option String) : ∀ given ∈ value.map Value.string, Textual given := by
    rintro _ isGiven
    rcases Option.map_eq_some_iff.mp isGiven with ⟨text, -, rfl⟩
    exact .text text
  have path (value : Option Path) : ∀ given ∈ value.map Config.pathValue, Textual given := by
    rintro _ isGiven
    rcases Option.map_eq_some_iff.mp isGiven with ⟨path, -, rfl⟩
    exact .text path.text
  refine ⟨_, rfl, ?_, ?_, ?_⟩
  · have keys : List.Nodup
        ["entryPoints", "entryPointStrategy", "out", "json", "name", "readme"] := by
      decide
    refine keys.sublist ?_
    simp only [List.map_append]
    exact (((((List.Sublist.refl ["entryPoints"]).append
      (sublist_keys_optionalMember ..)).append (sublist_keys_optionalMember ..)).append
      (sublist_keys_optionalMember ..)).append (sublist_keys_optionalMember ..)).append
      (sublist_keys_optionalMember ..)
  · intro key
    simp only [Members.find?_append, find?_optionalMember, Members.find?_cons,
      Members.find?_nil, setting?]
    by_cases isEntryPoints : key = "entryPoints"
    · simp [isEntryPoints]
    by_cases isStrategy : key = "entryPointStrategy"
    · simp [isStrategy]
    by_cases isOut : key = "out"
    · simp [isOut]
    by_cases isJson : key = "json"
    · simp [isJson]
    by_cases isName : key = "name"
    · simp [isName]
    simp [isEntryPoints, isStrategy, isOut, isJson, isName]
  · simp only [List.forall_mem_append]
    refine ⟨⟨⟨⟨⟨?_, ?_⟩, ?_⟩, ?_⟩, ?_⟩, ?_⟩
    · rw [List.forall_mem_singleton]
      have texts := Textual.texts (options.entryPoints.map Path.text)
      rw [List.map_map] at texts
      exact texts
    · exact textual_of_mem_optionalMember (string _)
    · exact textual_of_mem_optionalMember (path _)
    · exact textual_of_mem_optionalMember (path _)
    · exact textual_of_mem_optionalMember (string _)
    · exact textual_of_mem_optionalMember (path _)

/-- A project file is read as an object with the settings of its options. -/
theorem read_text (options : Options) :
    ∃ members : Members, Value.read options.text = .ok (.object members) ∧
      ∀ key, Members.find? members key = options.setting? key := by
  rcases exists_value_eq options with ⟨members, isObject, distinct, settings, textual⟩
  have integral : options.value.Integral := by
    rw [isObject]
    exact .object fun member inMembers => (textual member inMembers).integral
  have shallow : options.value.nesting ≤ depthLimit := by
    have twice : options.value.nesting ≤ 2 := by
      rw [isObject, Value.nesting_object_le_iff]
      exact fun member inMembers => (textual member inMembers).nesting_le
    exact twice.trans (by decide)
  refine ⟨Members.ofList (Value.sortedMembers members), ?_, ?_⟩
  · rw [text, Value.read_pretty integral shallow, isObject, Value.sorted]
  · intro key
    rw [distinct.sortedMembers.find?_ofList, Members.find?_sortedMembers, ← settings key]
    cases found : Members.find? members key with
    | none => rfl
    | some value =>
        exact congrArg some
          (textual _ (Members.mem_of_find?_eq_some found)).canonical.sorted_eq

end Options

/-! ### The files of a build -/

theorem fileName_projectFile : FileName projectFileName := by
  decide

theorem fileName_renderFile : FileName renderFileName := by
  decide

theorem fileName_dumpFile : FileName dumpFileName := by
  decide

theorem fileName_readmeFile : FileName readmeFileName := by
  decide

variable {files after : FileSystem} {current : Location} {config : Config}

/-- Whether a file is a project file with given options. -/
def Holds (files : FileSystem) (current : Location) (path : Path) (options : Options) : Prop :=
  ∃ (text : String) (members : Members),
    files.readText current path = .ok text ∧
      Value.read text = .ok (.object members) ∧
      ∀ key, Members.find? members key = options.setting? key

/-- A text that is written under a name is there, and files with other names are as they were. -/
theorem write_eq_ok
    {base : Path}
    {name text : String}
    (isName : FileName name)
    (wrote : outcome (write current (base.joinText name) text) files = (.ok (), after)) :
    Keeps (fun location => location.getLast? ≠ some name) files after ∧
      after.readText current (base.joinText name) = .ok text := by
  have writes {between : FileSystem}
      (wrote : outcome (FileSystem.Step.change fun files =>
        files.writeText current (base.joinText name) text) between = (.ok (), after)) :
      Keeps (fun location => location.getLast? ≠ some name) between after ∧
        after.readText current (base.joinText name) = .ok text := by
    rw [FileSystem.outcome_change_eq_ok_iff] at wrote
    exact ⟨FileSystem.keeps_writeText isName wrote,
      FileSystem.readText_of_writeText isName wrote⟩
  rw [write, FileSystem.outcome_explain_eq_ok_iff] at wrote
  dsimp only at wrote
  split at wrote
  · rcases outcome_bind_cases wrote with ⟨_, -, ⟨⟩⟩ | ⟨_, between, made, wrote⟩
    rcases writes wrote with ⟨keeps, isText⟩
    exact ⟨(FileSystem.keeps_makeDirectories made).trans keeps, isText⟩
  · exact writes wrote

/-- The first project lies in the working directory, with the entry points in order. -/
theorem emit_eq_ok
    {selected : List EntryPoints}
    {project : ReflectProject}
    (emitted : outcome (emit current config selected) files = (.ok project, after)) :
    project = ⟨config.workDir.joinText projectFileName, config.workDir.joinText dumpFileName⟩ ∧
      Holds after current project.projectFile (Options.reflect config selected) := by
  rw [emit] at emitted
  rcases outcome_bind_cases emitted with ⟨_, -, ⟨⟩⟩ | ⟨⟨⟩, between, wrote, ⟨⟩⟩
  rcases write_eq_ok fileName_projectFile wrote with ⟨-, isText⟩
  rcases Options.read_text (Options.reflect config selected) with ⟨members, isObject, settings⟩
  exact ⟨rfl, _, members, isText, isObject, settings⟩

/-- The file of the indexed readme, if there is one. -/
def readmeFile (config : Config) (readme : Option String) : Option Path :=
  readme.map fun _ => config.workDir.joinText readmeFileName

theorem emitReadme_eq_ok
    {readme : Option String}
    {path : Option Path}
    (emitted : outcome (emitReadme current config readme) files = (.ok path, after)) :
    path = readmeFile config readme ∧
      Keeps (fun location => location.getLast? ≠ some readmeFileName) files after ∧
      ∀ text ∈ readme,
        after.readText current (config.workDir.joinText readmeFileName) = .ok text := by
  cases readme with
  | none =>
      cases emitted
      exact ⟨rfl, FileSystem.Keeps.refl, nofun⟩
  | some text =>
      rw [emitReadme] at emitted
      rcases outcome_bind_cases emitted with ⟨_, -, ⟨⟩⟩ | ⟨⟨⟩, between, wrote, ⟨⟩⟩
      rcases write_eq_ok fileName_readmeFile wrote with ⟨keeps, isText⟩
      refine ⟨rfl, keeps, ?_⟩
      rintro _ ⟨⟩
      exact isText

/--
The second project lies in the working directory, with the dump as its only
entry point and the indexed readme, if there is one, in a file of its own.  The
dump is as it was.
-/
theorem emitRender_eq_ok
    {dump : Path}
    {readme : Option String}
    {project : RenderProject}
    (emitted : outcome (emitRender current config dump readme) files = (.ok project, after)) :
    project = ⟨config.workDir.joinText renderFileName, dump, config.outDir⟩ ∧
      Holds after current project.projectFile
        (Options.render config dump (readmeFile config readme)) ∧
      (∀ text ∈ readme,
        after.readText current (config.workDir.joinText readmeFileName) = .ok text) ∧
      ∀ text, files.readText current (config.workDir.joinText dumpFileName) = .ok text →
        after.readText current (config.workDir.joinText dumpFileName) = .ok text := by
  rw [emitRender] at emitted
  rcases outcome_bind_cases emitted with ⟨_, -, ⟨⟩⟩ | ⟨path, between, prepared, emitted⟩
  rcases outcome_bind_cases emitted with ⟨_, -, ⟨⟩⟩ | ⟨⟨⟩, after, wrote, ⟨⟩⟩
  rcases emitReadme_eq_ok prepared with ⟨rfl, keepsBetween, isReadme⟩
  rcases write_eq_ok fileName_renderFile wrote with ⟨keeps, isText⟩
  rcases Options.read_text (Options.render config dump (readmeFile config readme)) with
    ⟨members, isObject, settings⟩
  refine ⟨rfl, ⟨_, members, isText, isObject, settings⟩, ?_, ?_⟩
  · intro text given
    refine keeps.readText fileName_readmeFile ?_ (isReadme text given)
    simp [readmeFileName, renderFileName]
  · intro text isDump
    refine keeps.readText fileName_dumpFile ?_
      (keepsBetween.readText fileName_dumpFile ?_ isDump)
    · simp [dumpFileName, renderFileName]
    · simp [dumpFileName, readmeFileName]

end Concordance.Project
