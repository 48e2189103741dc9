import Concordance.Config.Decode
import Concordance.Proofs.Failure
import Concordance.Proofs.Json.Members

/-!
# Decoding records field by field

A record is decoded by going through the members of an object, each of which
sets at most one field.  For an object without repeated keys the order of the
members does not matter: every field is what the value of its key is read as,
or keeps its default (`Schema.Reads.foldlM`), and the run goes through if the
value of every field can be read (`Schema.exists_foldlM`).

From this a command and a configuration are described by their fields alone:
`CommandSpec.decode_object_eq_ok_iff`, `Config.decode_object_eq_ok_iff`.
-/

namespace Concordance

open Json (Value Members Mismatch)

namespace Decode

/-! ### Single values -/

theorem text_eq_ok_iff {value : Value} {written : String} :
    text value = .ok written ↔ value = .string written := by
  cases value <;> simp [text]

theorem path_eq_ok_iff {value : Value} {read : Path} :
    path value = .ok read ↔
      ∃ written, value = .string written ∧ read = Path.ofText written := by
  cases value <;> simp [path, eq_comm]

theorem nullable_eq_ok
    {α : Type}
    {read : Value → Except Mismatch α}
    {value : Value}
    {setting : Option α}
    (readable : nullable read value = .ok setting) :
    (value = .null ∧ setting = none) ∨
      ∃ content, read value = .ok content ∧ setting = some content := by
  unfold nullable at readable
  split at readable
  · cases readable
    exact .inl ⟨rfl, rfl⟩
  · cases content : read value with
    | error mismatch =>
        rw [content] at readable
        cases readable
    | ok content' =>
        rw [content] at readable
        cases readable
        exact .inr ⟨content', rfl, rfl⟩

theorem list_eq_ok_iff
    {α : Type}
    {read : Value → Except Mismatch α}
    {value : Value}
    {contents : List α} :
    list read value = .ok contents ↔
      ∃ items, value = .array items ∧ items.mapM read = .ok contents := by
  cases value <;> simp [list]

theorem mapM_text_eq_ok_iff {items : List Value} {texts : List String} :
    items.mapM text = .ok texts ↔ items = texts.map .string := by
  induction items generalizing texts with
  | nil =>
      constructor
      · rintro ⟨⟩
        rfl
      · intro none
        rw [List.map_eq_nil_iff.mp none.symm]
        rfl
  | cons item items induction =>
      rw [mapM_cons_eq_ok_iff]
      simp only [text_eq_ok_iff, induction]
      constructor
      · rintro ⟨first, rest, rfl, rfl, rfl⟩
        rfl
      · intro written
        cases texts with
        | nil => cases written
        | cons first rest =>
            rw [List.map_cons, List.cons.injEq] at written
            exact ⟨first, rest, written.1, written.2, rfl⟩

theorem choose_eq_ok_iff
    {α : Type}
    {choices : List (String × α)}
    {word : String}
    {choice : α} :
    choose choices word = .ok choice ↔ choices.lookup word = some choice := by
  rw [choose]
  cases choices.lookup word <;> simp

/-! ### Fields of a record -/

variable {α β : Type}

/-- A setting is what the value found for it is read as, or the default if none is found. -/
inductive Taken (read : Value → Except Mismatch β) (default : β) :
    Option Value → β → Prop where
  | read {value : Value} {setting : β} (readable : read value = .ok setting) :
      Taken read default (some value) setting
  | default : Taken read default none default

theorem taken_some_iff
    {read : Value → Except Mismatch β}
    {default setting : β}
    {value : Value} :
    Taken read default (some value) setting ↔ read value = .ok setting := by
  constructor
  · rintro ⟨readable⟩
    exact readable
  · exact .read

theorem taken_none_iff
    {read : Value → Except Mismatch β}
    {default setting : β} :
    Taken read default none setting ↔ setting = default := by
  constructor
  · rintro ⟨⟩
    rfl
  · rintro rfl
    exact .default

theorem Taken.unique
    {read : Value → Except Mismatch β}
    {default first second : β}
    {found : Option Value}
    (isFirst : Taken read default found first)
    (isSecond : Taken read default found second) :
    first = second := by
  cases isFirst with
  | read readable => exact Except.ok.inj (readable.symm.trans (taken_some_iff.mp isSecond))
  | default => exact (taken_none_iff.mp isSecond).symm

namespace Schema

/-- A part of a record that is read from the value of one key and that no other key changes. -/
structure Reads
    (schema : Schema α)
    (key : String)
    (read : Value → Except Mismatch β)
    (part : α → β) : Prop where
  declared : key ∈ schema.fields
  read_of_set {record updated : α} {value : Value}
    (set : schema.set record key value = .ok updated) :
    read value = .ok (part updated)
  set_of_read {value : Value} {setting : β}
    (readable : read value = .ok setting) (record : α) :
    ∃ updated, schema.set record key value = .ok updated
  kept {record updated : α} {other : String} {value : Value}
    (set : schema.set record other value = .ok updated)
    (different : other ≠ key) :
    part updated = part record

variable
    {schema : Schema α}
    {key : String}
    {read : Value → Except Mismatch β}
    {part : α → β}

/-- A field that takes what it reads is read from its key. -/
theorem Reads.of_put
    (put : α → β → α)
    (declared : key ∈ schema.fields)
    (set_eq : ∀ record value,
      schema.set record key value = (do pure (put record (← read value))))
    (part_put : ∀ record setting, part (put record setting) = setting)
    (kept : ∀ {record updated : α} {other : String} {value : Value},
      schema.set record other value = .ok updated → other ≠ key →
        part updated = part record) :
    schema.Reads key read part where
  declared := declared
  read_of_set {record updated value} set := by
    rw [set_eq, bind_eq_ok_iff] at set
    rcases set with ⟨setting, readable, ⟨⟩⟩
    rw [readable, part_put]
  set_of_read {value setting} readable record := by
    refine ⟨put record setting, ?_⟩
    rw [set_eq, bind_eq_ok_iff]
    exact ⟨setting, readable, rfl⟩
  kept := kept

theorem Reads.kept_by_member
    (reads : schema.Reads key read part)
    {record updated : α}
    {member : String × Value}
    (set : schema.setMember record member = .ok updated)
    (different : member.1 ≠ key) :
    part updated = part record := by
  rw [setMember] at set
  split at set
  · exact reads.kept set different
  · cases set
    rfl

/-- After all members a part is what its key holds, or else what it was before. -/
theorem Reads.foldlM
    (reads : schema.Reads key read part)
    {members : Members}
    (distinct : members.Distinct)
    {record final : α}
    (run : members.foldlM schema.setMember record = .ok final) :
    Taken read (part record) (members.find? key) (part final) := by
  induction members generalizing record with
  | nil =>
      cases run
      exact .default
  | cons member members induction =>
      rcases member with ⟨head, value⟩
      rcases Members.distinct_cons.mp distinct with ⟨absent, restDistinct⟩
      rw [List.foldlM_cons, bind_eq_ok_iff] at run
      rcases run with ⟨next, set, run⟩
      have later := induction restDistinct run
      rw [Members.find?_cons]
      by_cases same : key = head
      · subst same
        rw [Members.find?_eq_none_of_forall absent, taken_none_iff] at later
        rw [setMember, if_pos reads.declared] at set
        rw [if_pos rfl, later]
        exact .read (reads.read_of_set set)
      · rw [if_neg same, ← reads.kept_by_member set (Ne.symm same)]
        exact later

/-- If the value of every field can be set in every record, the run goes through. -/
theorem exists_foldlM
    {members : Members}
    (distinct : members.Distinct)
    (each : ∀ key ∈ schema.fields, ∀ value, members.find? key = some value →
      ∀ record, ∃ updated, schema.set record key value = .ok updated)
    (record : α) :
    ∃ final, members.foldlM schema.setMember record = .ok final := by
  induction members generalizing record with
  | nil => exact ⟨record, rfl⟩
  | cons member members induction =>
      rcases member with ⟨head, value⟩
      rcases Members.distinct_cons.mp distinct with ⟨absent, restDistinct⟩
      have first : ∃ next, schema.setMember record (head, value) = .ok next := by
        rw [setMember]
        split
        · rename_i declared
          exact each head declared value (by rw [Members.find?_cons, if_pos rfl]) record
        · exact ⟨record, rfl⟩
      have others : ∀ key ∈ schema.fields, ∀ value,
          Members.find? members key = some value →
            ∀ record, ∃ updated, schema.set record key value = .ok updated := by
        intro key declared value found
        refine each key declared value ?_
        rw [Members.find?_cons, if_neg, found]
        rintro rfl
        rw [Members.find?_eq_none_of_forall absent] at found
        cases found
      rcases first with ⟨next, set⟩
      rcases induction restDistinct others next with ⟨final, run⟩
      refine ⟨final, ?_⟩
      rw [List.foldlM_cons, bind_eq_ok_iff]
      exact ⟨next, set, run⟩

/-- The value of a field from which a setting is taken can be set in every record. -/
theorem Reads.settable
    (reads : schema.Reads key read part)
    {members : Members}
    {default setting : β}
    (taken : Taken read default (members.find? key) setting) :
    ∀ value, members.find? key = some value →
      ∀ record, ∃ updated, schema.set record key value = .ok updated := by
  intro value found
  rw [found, taken_some_iff] at taken
  exact reads.set_of_read taken

/-- An object is decoded by a run through its members, if every required key is there. -/
theorem decodeObject_eq_ok_iff
    {defaults record : α}
    {members : Members} :
    schema.decodeObject defaults members = .ok record ↔
      members.foldlM schema.setMember defaults = .ok record ∧
        ∀ key ∈ schema.required, members.has key := by
  rw [decodeObject, bind_eq_ok_iff]
  constructor
  · rintro ⟨final, run, required⟩
    split at required
    · cases required
    · rename_i complete
      cases required
      refine ⟨run, ?_⟩
      intro key declared
      simpa using List.find?_eq_none.mp complete key declared
  · rintro ⟨run, complete⟩
    refine ⟨record, run, ?_⟩
    have nothing : (schema.required.find? fun field => !members.has field) = none :=
      List.find?_eq_none.mpr fun key declared => by simp [complete key declared]
    rw [nothing]
    rfl

end Schema

end Decode

open Decode (Taken)

/-! ### Commands -/

namespace CommandSpec

/-- What giving a field of a command a value can do. -/
inductive FieldSet (spec : CommandSpec) : String → Value → CommandSpec → Prop where
  | command {value : Value} {text : String} (read : Decode.text value = .ok text) :
      FieldSet spec "command" value { spec with command := text }
  | args {value : Value} {texts : List String}
      (read : Decode.list Decode.text value = .ok texts) :
      FieldSet spec "args" value { spec with args := texts }
  | ignored {field : String} {value : Value} (other : field ∉ schema.fields) :
      FieldSet spec field value spec

theorem fieldSet_of_setField
    {spec updated : CommandSpec}
    {field : String}
    {value : Value}
    (set : spec.setField field value = .ok updated) :
    spec.FieldSet field value updated := by
  unfold setField at set
  split at set
  · rcases bind_eq_ok_iff.mp set with ⟨text, read, ⟨⟩⟩
    exact .command read
  · rcases bind_eq_ok_iff.mp set with ⟨texts, read, ⟨⟩⟩
    exact .args read
  · cases set
    exact .ignored (by simp_all [schema, Decode.Schema.fields])

theorem reads_command : schema.Reads "command" Decode.text command :=
  .of_put (fun spec text => { spec with command := text }) (by decide)
    (fun _ _ => rfl) (fun _ _ => rfl) fun set different => by
      cases fieldSet_of_setField set with
      | command => exact (different rfl).elim
      | _ => rfl

theorem reads_args : schema.Reads "args" (Decode.list Decode.text) args :=
  .of_put (fun spec texts => { spec with args := texts }) (by decide)
    (fun _ _ => rfl) (fun _ _ => rfl) fun set different => by
      cases fieldSet_of_setField set with
      | args => exact (different rfl).elim
      | _ => rfl

/-- A command is read from the members of an object. -/
structure ReadFrom (spec : CommandSpec) (members : Members) : Prop where
  command : members.find? "command" = some (.string spec.command)
  args : Taken (Decode.list Decode.text) [] (members.find? "args") spec.args

theorem decode_object_eq_ok_iff
    {members : Members}
    (distinct : members.Distinct)
    {spec : CommandSpec} :
    decode (.object members) = .ok spec ↔ spec.ReadFrom members := by
  rw [decode, Decode.Schema.decode, Decode.Schema.decodeObject_eq_ok_iff]
  constructor
  · rintro ⟨run, required⟩
    have command := reads_command.foldlM distinct run
    have present : members.has "command" := required "command" (by decide)
    rcases Option.isSome_iff_exists.mp present with ⟨value, found⟩
    rw [found, Decode.taken_some_iff, Decode.text_eq_ok_iff] at command
    refine ⟨?_, reads_args.foldlM distinct run⟩
    rw [found, command]
  · rintro ⟨command, args⟩
    have text : Taken Decode.text "" (members.find? "command") spec.command := by
      rw [command]
      exact .read rfl
    have settable : ∀ key ∈ schema.fields, ∀ value, members.find? key = some value →
        ∀ record, ∃ updated, schema.set record key value = .ok updated := by
      rw [show schema.fields = ["command", "args"] from rfl]
      simp only [List.forall_mem_cons]
      exact ⟨reads_command.settable text, reads_args.settable args, nofun⟩
    rcases Decode.Schema.exists_foldlM distinct settable ⟨"", []⟩ with ⟨final, run⟩
    have same : final = spec := by
      cases final
      cases spec
      rw [CommandSpec.mk.injEq]
      exact ⟨(reads_command.foldlM distinct run).unique text,
        (reads_args.foldlM distinct run).unique args⟩
    refine ⟨same ▸ run, ?_⟩
    intro key required
    rw [List.mem_singleton.mp required, Members.has, command]
    rfl

end CommandSpec

/-! ### Configurations -/

namespace Config

/-- What giving a field of a configuration a value can do. -/
inductive FieldSet (config : Config) : String → Value → Config → Prop where
  | outDir {value : Value} {path : Path} (read : Decode.path value = .ok path) :
      FieldSet config "outDir" value { config with outDir := path }
  | workDir {value : Value} {path : Path} (read : Decode.path value = .ok path) :
      FieldSet config "workDir" value { config with workDir := path }
  | name {value : Value} {name : Option String}
      (read : Decode.nullable Decode.text value = .ok name) :
      FieldSet config "name" value { config with name := name }
  | readme {value : Value} {readme : Option Path}
      (read : Decode.nullable Decode.path value = .ok readme) :
      FieldSet config "readme" value { config with readme := readme }
  | indexMarker {value : Value} {text : String} (read : Decode.text value = .ok text) :
      FieldSet config "indexMarker" value { config with indexMarker := text }
  | markerPolicy {value : Value} {policy : Index.MarkerPolicy}
      (read : Decode.choice policyWords value = .ok policy) :
      FieldSet config "markerPolicy" value { config with markerPolicy := policy }
  | pageLayout {value : Value} {layout : Index.PageLayout}
      (read : Decode.choice layoutWords value = .ok layout) :
      FieldSet config "pageLayout" value { config with pageLayout := layout }
  | install {value : Value} {spec : CommandSpec}
      (read : CommandSpec.decode value = .ok spec) :
      FieldSet config "install" value { config with install := spec }
  | compiler {value : Value} {spec : CommandSpec}
      (read : CommandSpec.decode value = .ok spec) :
      FieldSet config "compiler" value { config with compiler := spec }
  | repositories {value : Value} {repositories : List Repository}
      (read : Decode.list Repository.decode value = .ok repositories) :
      FieldSet config "repositories" value { config with repositories := repositories }
  | ignored {field : String} {value : Value} (other : field ∉ schema.fields) :
      FieldSet config field value config

theorem fieldSet_of_setField
    {config updated : Config}
    {field : String}
    {value : Value}
    (set : config.setField field value = .ok updated) :
    config.FieldSet field value updated := by
  unfold setField at set
  split at set
  · rcases bind_eq_ok_iff.mp set with ⟨path, read, ⟨⟩⟩
    exact .outDir read
  · rcases bind_eq_ok_iff.mp set with ⟨path, read, ⟨⟩⟩
    exact .workDir read
  · rcases bind_eq_ok_iff.mp set with ⟨name, read, ⟨⟩⟩
    exact .name read
  · rcases bind_eq_ok_iff.mp set with ⟨readme, read, ⟨⟩⟩
    exact .readme read
  · rcases bind_eq_ok_iff.mp set with ⟨text, read, ⟨⟩⟩
    exact .indexMarker read
  · rcases bind_eq_ok_iff.mp set with ⟨policy, read, ⟨⟩⟩
    exact .markerPolicy read
  · rcases bind_eq_ok_iff.mp set with ⟨layout, read, ⟨⟩⟩
    exact .pageLayout read
  · rcases bind_eq_ok_iff.mp set with ⟨spec, read, ⟨⟩⟩
    exact .install read
  · rcases bind_eq_ok_iff.mp set with ⟨spec, read, ⟨⟩⟩
    exact .compiler read
  · rcases bind_eq_ok_iff.mp set with ⟨repositories, read, ⟨⟩⟩
    exact .repositories read
  · cases set
    exact .ignored (by simp_all [schema, Decode.Schema.fields])

/-- A part that every change of another field leaves alone is kept by the other keys. -/
theorem reads_of_put
    {β : Type}
    {key : String}
    {read : Value → Except Mismatch β}
    {part : Config → β}
    (put : Config → β → Config)
    (declared : key ∈ schema.fields)
    (set_eq : ∀ config value,
      setField config key value = (do pure (put config (← read value))))
    (part_put : ∀ config setting, part (put config setting) = setting)
    (kept : ∀ {config updated : Config} {other : String} {value : Value},
      config.FieldSet other value updated → other ≠ key → part updated = part config) :
    schema.Reads key read part :=
  .of_put put declared set_eq part_put fun set => kept (fieldSet_of_setField set)

theorem reads_outDir : schema.Reads "outDir" Decode.path outDir :=
  reads_of_put (fun config path => { config with outDir := path }) (by decide)
    (fun _ _ => rfl) (fun _ _ => rfl) fun set different => by
      cases set with
      | outDir => exact (different rfl).elim
      | _ => rfl

theorem reads_workDir : schema.Reads "workDir" Decode.path workDir :=
  reads_of_put (fun config path => { config with workDir := path }) (by decide)
    (fun _ _ => rfl) (fun _ _ => rfl) fun set different => by
      cases set with
      | workDir => exact (different rfl).elim
      | _ => rfl

theorem reads_name : schema.Reads "name" (Decode.nullable Decode.text) name :=
  reads_of_put (fun config name => { config with name := name }) (by decide)
    (fun _ _ => rfl) (fun _ _ => rfl) fun set different => by
      cases set with
      | name => exact (different rfl).elim
      | _ => rfl

theorem reads_readme : schema.Reads "readme" (Decode.nullable Decode.path) readme :=
  reads_of_put (fun config readme => { config with readme := readme }) (by decide)
    (fun _ _ => rfl) (fun _ _ => rfl) fun set different => by
      cases set with
      | readme => exact (different rfl).elim
      | _ => rfl

theorem reads_indexMarker : schema.Reads "indexMarker" Decode.text indexMarker :=
  reads_of_put (fun config text => { config with indexMarker := text }) (by decide)
    (fun _ _ => rfl) (fun _ _ => rfl) fun set different => by
      cases set with
      | indexMarker => exact (different rfl).elim
      | _ => rfl

theorem reads_markerPolicy :
    schema.Reads "markerPolicy" (Decode.choice policyWords) markerPolicy :=
  reads_of_put (fun config policy => { config with markerPolicy := policy }) (by decide)
    (fun _ _ => rfl) (fun _ _ => rfl) fun set different => by
      cases set with
      | markerPolicy => exact (different rfl).elim
      | _ => rfl

theorem reads_pageLayout :
    schema.Reads "pageLayout" (Decode.choice layoutWords) pageLayout :=
  reads_of_put (fun config layout => { config with pageLayout := layout }) (by decide)
    (fun _ _ => rfl) (fun _ _ => rfl) fun set different => by
      cases set with
      | pageLayout => exact (different rfl).elim
      | _ => rfl

theorem reads_install : schema.Reads "install" CommandSpec.decode install :=
  reads_of_put (fun config spec => { config with install := spec }) (by decide)
    (fun _ _ => rfl) (fun _ _ => rfl) fun set different => by
      cases set with
      | install => exact (different rfl).elim
      | _ => rfl

theorem reads_compiler : schema.Reads "compiler" CommandSpec.decode compiler :=
  reads_of_put (fun config spec => { config with compiler := spec }) (by decide)
    (fun _ _ => rfl) (fun _ _ => rfl) fun set different => by
      cases set with
      | compiler => exact (different rfl).elim
      | _ => rfl

theorem reads_repositories :
    schema.Reads "repositories" (Decode.list Repository.decode) repositories :=
  reads_of_put (fun config repositories => { config with repositories := repositories }) (by decide)
    (fun _ _ => rfl) (fun _ _ => rfl) fun set different => by
      cases set with
      | repositories => exact (different rfl).elim
      | _ => rfl

/-- A configuration is read from the members of an object. -/
structure ReadFrom (config : Config) (members : Members) : Prop where
  outDir : Taken Decode.path ({} : Config).outDir (members.find? "outDir") config.outDir
  workDir : Taken Decode.path ({} : Config).workDir (members.find? "workDir") config.workDir
  name : Taken (Decode.nullable Decode.text) none (members.find? "name") config.name
  readme : Taken (Decode.nullable Decode.path) none (members.find? "readme") config.readme
  indexMarker :
    Taken Decode.text ({} : Config).indexMarker (members.find? "indexMarker")
      config.indexMarker
  markerPolicy :
    Taken (Decode.choice policyWords) ({} : Config).markerPolicy
      (members.find? "markerPolicy") config.markerPolicy
  pageLayout :
    Taken (Decode.choice layoutWords) ({} : Config).pageLayout
      (members.find? "pageLayout") config.pageLayout
  install :
    Taken CommandSpec.decode ({} : Config).install (members.find? "install") config.install
  compiler :
    Taken CommandSpec.decode ({} : Config).compiler (members.find? "compiler")
      config.compiler
  repositories :
    Taken (Decode.list Repository.decode) [] (members.find? "repositories")
      config.repositories

theorem ReadFrom.unique
    {members : Members}
    {first second : Config}
    (isFirst : first.ReadFrom members)
    (isSecond : second.ReadFrom members) :
    first = second := by
  cases first
  cases second
  rw [Config.mk.injEq]
  exact ⟨isFirst.outDir.unique isSecond.outDir, isFirst.workDir.unique isSecond.workDir,
    isFirst.name.unique isSecond.name, isFirst.readme.unique isSecond.readme,
    isFirst.indexMarker.unique isSecond.indexMarker,
    isFirst.markerPolicy.unique isSecond.markerPolicy,
    isFirst.pageLayout.unique isSecond.pageLayout, isFirst.install.unique isSecond.install,
    isFirst.compiler.unique isSecond.compiler,
    isFirst.repositories.unique isSecond.repositories⟩

theorem readFrom_of_foldlM
    {members : Members}
    (distinct : members.Distinct)
    {config : Config}
    (run : members.foldlM schema.setMember {} = .ok config) :
    config.ReadFrom members where
  outDir := reads_outDir.foldlM distinct run
  workDir := reads_workDir.foldlM distinct run
  name := reads_name.foldlM distinct run
  readme := reads_readme.foldlM distinct run
  indexMarker := reads_indexMarker.foldlM distinct run
  markerPolicy := reads_markerPolicy.foldlM distinct run
  pageLayout := reads_pageLayout.foldlM distinct run
  install := reads_install.foldlM distinct run
  compiler := reads_compiler.foldlM distinct run
  repositories := reads_repositories.foldlM distinct run

theorem ReadFrom.settable
    {members : Members}
    {config : Config}
    (read : config.ReadFrom members) :
    ∀ key ∈ schema.fields, ∀ value, members.find? key = some value →
      ∀ record, ∃ updated, schema.set record key value = .ok updated := by
  rw [show schema.fields = ["outDir", "workDir", "name", "readme", "indexMarker",
    "markerPolicy", "pageLayout", "install", "compiler", "repositories"] from rfl]
  simp only [List.forall_mem_cons]
  exact ⟨reads_outDir.settable read.outDir, reads_workDir.settable read.workDir,
    reads_name.settable read.name, reads_readme.settable read.readme,
    reads_indexMarker.settable read.indexMarker,
    reads_markerPolicy.settable read.markerPolicy,
    reads_pageLayout.settable read.pageLayout, reads_install.settable read.install,
    reads_compiler.settable read.compiler,
    reads_repositories.settable read.repositories, nofun⟩

/-- An object gives a configuration exactly if each field is taken from its key. -/
theorem decode_object_eq_ok_iff
    {members : Members}
    (distinct : members.Distinct)
    {config : Config} :
    decode (.object members) = .ok config ↔ config.ReadFrom members := by
  rw [decode, mapError_eq_ok_iff, Decode.Schema.decode,
    Decode.Schema.decodeObject_eq_ok_iff]
  constructor
  · rintro ⟨run, -⟩
    exact readFrom_of_foldlM distinct run
  · intro read
    rcases Decode.Schema.exists_foldlM distinct read.settable {} with ⟨final, run⟩
    refine ⟨?_, nofun⟩
    rw [run, (readFrom_of_foldlM distinct run).unique read]

end Config

end Concordance
