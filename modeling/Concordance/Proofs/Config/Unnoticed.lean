import Mathlib.Data.List.Find
import Concordance.Proofs.Config.Printing

/-!
# Changes that decoding does not notice

Decoding an object looks at the members of its fields and at nothing else, and
of a missing field it takes the default.  So it does not notice if a member
that belongs to no field is added, changed or taken away, if a missing field
is given its default, or if a field gets another value from which the same is
read in every record: `Schema.Unnoticed`.

Configurations have records inside: the two commands and the repositories.
Changes unnoticed in these are unnoticed in the configuration, which makes one
relation over all three levels, `Config.Unnoticed`.  Whatever is changed in
this way, one step after the other, the outcome is the same configuration or
the same error.
-/

namespace Concordance

open Json (Value Members Mismatch)

namespace Decode.Schema

variable {α β : Type}

/--
Changes of an object that its decoder does not notice, where `encoded` is the
record of the defaults as an object and `within` holds of values of a field
from which the same is read.
-/
inductive Unnoticed
    (schema : Schema α)
    (encoded : Value)
    (within : String → Value → Value → Prop) : Value → Value → Prop where
  | given {members : Members} {key : String}
      (stray : key ∉ schema.fields)
      (value : Value) :
      Unnoticed schema encoded within (.object members) (.object (members.insert key value))
  | removed {members : Members} {key : String}
      (stray : key ∉ schema.fields) :
      Unnoticed schema encoded within (.object members) (.object (members.erase key))
  | completed {members : Members} {key : String} {value : Value}
      (defaulted : key ∈ schema.defaulted)
      (missing : members.find? key = none)
      (default : encoded.at? [key] = some value) :
      Unnoticed schema encoded within (.object members) (.object (members.insert key value))
  | inside {before after : Members} {key : String} {value changed : Value}
      (alike : within key value changed) :
      Unnoticed schema encoded within (.object (before ++ (key, value) :: after))
        (.object (before ++ (key, changed) :: after))

/-! ### Members that change no record -/

variable {schema : Schema α} {key : String}

/--
Giving a key a value makes no difference to a run if it changes no record that
the run can come to before that key, and if what it replaces changes none.
-/
theorem foldlM_insert_of_idle
    {Standing : α → Prop}
    {value : Value}
    (idle : ∀ record, Standing record → schema.setMember record (key, value) = .ok record)
    (kept : ∀ record next member, Standing record → member.1 ≠ key →
      schema.setMember record member = .ok next → Standing next)
    {members : Members}
    (replaced : ∀ old, members.find? key = some old →
      ∀ record, Standing record → schema.setMember record (key, old) = .ok record)
    {record : α}
    (standing : Standing record) :
    (members.insert key value).foldlM schema.setMember record =
      members.foldlM schema.setMember record := by
  induction members generalizing record with
  | nil =>
      rw [Members.insert, List.foldlM_cons, idle record standing]
      rfl
  | cons member members induction =>
      rcases member with ⟨head, old⟩
      rw [Members.insert]
      split
      · rw [List.foldlM_cons, idle record standing]
        rfl
      · split
        · rename_i same
          subst same
          have formerly := replaced old (by rw [Members.find?_cons, if_pos rfl]) record standing
          rw [List.foldlM_cons, List.foldlM_cons, idle record standing, formerly]
        · rename_i different
          have later := replaced
          rw [Members.find?_cons, if_neg different] at later
          rw [List.foldlM_cons, List.foldlM_cons]
          cases set : schema.setMember record (head, old) with
          | error mismatch => rfl
          | ok next =>
              exact induction later
                (kept record next (head, old) standing (Ne.symm different) set)

theorem setMember_of_stray
    (stray : key ∉ schema.fields)
    (record : α)
    (value : Value) :
    schema.setMember record (key, value) = .ok record :=
  if_neg stray

theorem foldlM_insert_of_stray
    (stray : key ∉ schema.fields)
    (value : Value)
    (members : Members)
    (record : α) :
    (members.insert key value).foldlM schema.setMember record =
      members.foldlM schema.setMember record :=
  foldlM_insert_of_idle (fun current (_ : True) => setMember_of_stray stray current value)
    (fun _ _ _ _ _ _ => trivial) (fun old _ current _ => setMember_of_stray stray current old)
    trivial

theorem foldlM_erase_of_stray
    (stray : key ∉ schema.fields)
    (members : Members)
    (record : α) :
    (members.erase key).foldlM schema.setMember record =
      members.foldlM schema.setMember record := by
  induction members generalizing record with
  | nil => rfl
  | cons member members induction =>
      rcases member with ⟨head, old⟩
      rw [Members.erase] at induction ⊢
      rw [List.filter_cons, List.foldlM_cons]
      by_cases same : head = key
      · rw [same, setMember_of_stray stray, if_neg (by simp), induction]
        rfl
      · rw [if_pos (by simpa using same), List.foldlM_cons]
        exact congrArg _ (funext induction)

/-! ### Defaults that are written out -/

/--
Giving a missing field the value that the record already has for it changes
nothing: no other member touches the field before its turn comes.
-/
theorem Reads.foldlM_insert_of_missing
    {read : Value → Except Mismatch β}
    {part : α → β}
    (reads : schema.Reads key read part)
    (put : α → β → α)
    (set_eq : ∀ record value,
      schema.set record key value = (do pure (put record (← read value))))
    (put_part : ∀ record, put record (part record) = record)
    {value : Value}
    {record : α}
    (readable : read value = .ok (part record))
    {members : Members}
    (missing : members.find? key = none) :
    (members.insert key value).foldlM schema.setMember record =
      members.foldlM schema.setMember record := by
  have idle (current : α) (standing : read value = .ok (part current)) :
      schema.setMember current (key, value) = .ok current := by
    rw [setMember, if_pos reads.declared, set_eq, standing]
    exact congrArg Except.ok (put_part current)
  refine foldlM_insert_of_idle idle ?_ ?_ readable
  · intro current next member standing different set
    rw [standing, reads.kept_by_member set different]
  · intro old found
    rw [missing] at found
    cases found

/-- What a missing field is given when the defaults are written out leaves the record as it is. -/
theorem Reads.standing
    {read : Value → Except Mismatch β}
    {part : α → β}
    (reads : schema.Reads key read part)
    (put : α → β → α)
    (set_eq : ∀ record value,
      schema.set record key value = (do pure (put record (← read value))))
    (put_part : ∀ record, put record (part record) = record)
    {encoded : Members}
    {default : β}
    {record : α}
    (taken : Taken read default (encoded.find? key) (part record)) :
    ∀ value, (Value.object encoded).at? [key] = some value →
      ∀ members : Members, members.find? key = none →
        (members.insert key value).foldlM schema.setMember record =
          members.foldlM schema.setMember record := by
  intro value found members missing
  rw [Value.at?_key] at found
  rw [found, taken_some_iff] at taken
  exact reads.foldlM_insert_of_missing put set_eq put_part taken missing

/-! ### Whole objects -/

theorem decodeObject_congr
    {defaults : α}
    {members changed : Members}
    (run : changed.foldlM schema.setMember defaults = members.foldlM schema.setMember defaults)
    (present : ∀ field ∈ schema.required, changed.has field = members.has field) :
    schema.decodeObject defaults changed = schema.decodeObject defaults members := by
  have missing : (schema.required.find? fun field => !changed.has field) =
      schema.required.find? fun field => !members.has field :=
    List.find?_congr fun field required => by rw [present field required]
  rw [decodeObject, decodeObject, run, missing]

theorem ne_of_stray
    {field : String}
    (required : field ∈ schema.required)
    (stray : key ∉ schema.fields) :
    field ≠ key := by
  rintro rfl
  exact stray (List.mem_append_left _ required)

/--
A decoder does not notice what is unnoticed, if its defaults are those of the
encoded record and the values that are alike within its fields are read alike.
-/
theorem Unnoticed.decode_eq
    {encoded : Value}
    {within : String → Value → Value → Prop}
    {defaults : α}
    (apart : ∀ key ∈ schema.defaulted, key ∉ schema.required)
    (standing : ∀ key ∈ schema.defaulted, ∀ value, encoded.at? [key] = some value →
      ∀ members : Members, members.find? key = none →
        (members.insert key value).foldlM schema.setMember defaults =
          members.foldlM schema.setMember defaults)
    (alike : ∀ key value changed, within key value changed → ∀ record,
      schema.set record key changed = schema.set record key value)
    {value changed : Value}
    (unnoticed : schema.Unnoticed encoded within value changed) :
    schema.decode defaults changed = schema.decode defaults value := by
  cases unnoticed with
  | given stray value =>
      refine decodeObject_congr (foldlM_insert_of_stray stray value _ defaults) ?_
      intro field required
      rw [Members.has, Members.find?_insert_of_ne (ne_of_stray required stray), Members.has]
  | removed stray =>
      refine decodeObject_congr (foldlM_erase_of_stray stray _ defaults) ?_
      intro field required
      rw [Members.has, Members.find?_erase, if_neg (ne_of_stray required stray), Members.has]
  | @completed members key value defaulted missing default =>
      refine decodeObject_congr (standing key defaulted value default members missing) ?_
      intro field required
      have other : field ≠ key := fun same => apart key defaulted (same ▸ required)
      rw [Members.has, Members.find?_insert_of_ne other, Members.has]
  | @inside before after key value changed within =>
      have set (record : α) : schema.setMember record (key, changed) =
          schema.setMember record (key, value) := by
        rw [setMember, setMember, alike key value changed within]
      refine decodeObject_congr ?_ ?_
      · simp only [List.foldlM_append, List.foldlM_cons, set]
      · intro field _
        simp only [Members.has, Members.find?_append, Members.find?_cons]
        split <;> simp only [Option.isSome_or, Option.isSome_some]

end Decode.Schema

/-! ### Commands and repositories -/

/-- Changes of an object that are not noticed where it is read as a command. -/
def CommandSpec.Unnoticed : Value → Value → Prop :=
  schema.Unnoticed (CommandSpec.mk "" []).value.sorted fun _ _ _ => False

theorem CommandSpec.decode_of_unnoticed
    {value changed : Value}
    (unnoticed : CommandSpec.Unnoticed value changed) :
    decode changed = decode value := by
  have defaults := (decode_object_eq_ok_iff (Members.sorted_ofList _).distinct).mp
    (decode_sorted_value (CommandSpec.mk "" []))
  refine Decode.Schema.Unnoticed.decode_eq (by decide) ?_ nofun unnoticed
  exact List.forall_mem_singleton.mpr (reads_args.standing
    (fun spec texts => { spec with args := texts }) (fun _ _ => rfl) (fun _ => rfl) defaults.args)

/-- Changes of an object that are not noticed where it is read as a repository. -/
def Repository.Unnoticed : Value → Value → Prop :=
  schema.Unnoticed ({ name := "", url := "" } : Repository).value.sorted fun _ _ _ => False

theorem Repository.decode_of_unnoticed
    {value changed : Value}
    (unnoticed : Repository.Unnoticed value changed) :
    decode changed = decode value := by
  have defaults := (decode_object_eq_ok_iff (Members.sorted_ofList _).distinct).mp
    (decode_sorted_value { name := "", url := "" })
  refine Decode.Schema.Unnoticed.decode_eq (by decide) ?_ nofun unnoticed
  rw [show schema.defaulted = ["reference", "entryPoints", "exclude", "install"] from rfl]
  simp only [List.forall_mem_cons]
  exact ⟨
    reads_pinned.standing (fun repository reference => { repository with pinned := reference })
      (fun _ _ => rfl) (fun _ => rfl) defaults.pinned,
    reads_entryPoints.standing (fun repository globs => { repository with entryPoints := globs })
      (fun _ _ => rfl) (fun _ => rfl) defaults.entryPoints,
    reads_exclude.standing (fun repository globs => { repository with exclude := globs })
      (fun _ _ => rfl) (fun _ => rfl) defaults.exclude,
    reads_install.standing (fun repository install => { repository with install := install })
      (fun _ _ => rfl) (fun _ => rfl) defaults.install, nofun⟩

/-! ### Configurations -/

namespace Config

/-- Values of a field of a configuration that differ in what their decoders do not notice. -/
inductive Within : String → Value → Value → Prop where
  | install {value changed : Value} (unnoticed : CommandSpec.Unnoticed value changed) :
      Within "install" value changed
  | compiler {value changed : Value} (unnoticed : CommandSpec.Unnoticed value changed) :
      Within "compiler" value changed
  | repositories {before after : List Value} {value changed : Value}
      (unnoticed : Repository.Unnoticed value changed) :
      Within "repositories" (.array (before ++ value :: after))
        (.array (before ++ changed :: after))

/-- Changes of an object that are not noticed where it is read as a configuration. -/
def Unnoticed : Value → Value → Prop :=
  schema.Unnoticed ({} : Config).value.sorted Within

theorem Within.setField_eq
    {field : String}
    {value changed : Value}
    (within : Within field value changed)
    (config : Config) :
    config.setField field changed = config.setField field value := by
  cases within with
  | install unnoticed => simp only [setField, CommandSpec.decode_of_unnoticed unnoticed]
  | compiler unnoticed => simp only [setField, CommandSpec.decode_of_unnoticed unnoticed]
  | repositories unnoticed =>
      simp only [setField, Decode.list, List.mapM_append, List.mapM_cons,
        Repository.decode_of_unnoticed unnoticed]

theorem written_default : ({} : Config).Written where
  outDir := ⟨"docs", rfl⟩
  workDir := ⟨".doccer", rfl⟩
  readme := nofun

theorem decode_of_unnoticed
    {value changed : Value}
    (unnoticed : Unnoticed value changed) :
    decode changed = decode value := by
  have defaults := (decode_object_eq_ok_iff (Members.sorted_ofList _).distinct).mp
    (decode_sorted_value written_default)
  refine congrArg (Except.mapError ConfigError.schema) (Decode.Schema.Unnoticed.decode_eq
    (by decide) ?_ (fun _ _ _ within => within.setField_eq) unnoticed)
  rw [show schema.defaulted = ["outDir", "workDir", "name", "readme", "indexMarker",
    "markerPolicy", "pageLayout", "install", "compiler", "repositories"] from rfl]
  simp only [List.forall_mem_cons]
  exact ⟨
    reads_outDir.standing (fun config path => { config with outDir := path })
      (fun _ _ => rfl) (fun _ => rfl) defaults.outDir,
    reads_workDir.standing (fun config path => { config with workDir := path })
      (fun _ _ => rfl) (fun _ => rfl) defaults.workDir,
    reads_name.standing (fun config name => { config with name := name })
      (fun _ _ => rfl) (fun _ => rfl) defaults.name,
    reads_readme.standing (fun config readme => { config with readme := readme })
      (fun _ _ => rfl) (fun _ => rfl) defaults.readme,
    reads_indexMarker.standing (fun config text => { config with indexMarker := text })
      (fun _ _ => rfl) (fun _ => rfl) defaults.indexMarker,
    reads_markerPolicy.standing (fun config policy => { config with markerPolicy := policy })
      (fun _ _ => rfl) (fun _ => rfl) defaults.markerPolicy,
    reads_pageLayout.standing (fun config layout => { config with pageLayout := layout })
      (fun _ _ => rfl) (fun _ => rfl) defaults.pageLayout,
    reads_install.standing (fun config spec => { config with install := spec })
      (fun _ _ => rfl) (fun _ => rfl) defaults.install,
    reads_compiler.standing (fun config spec => { config with compiler := spec })
      (fun _ _ => rfl) (fun _ => rfl) defaults.compiler,
    reads_repositories.standing
      (fun config repositories => { config with repositories := repositories })
      (fun _ _ => rfl) (fun _ => rfl) defaults.repositories, nofun⟩

/--
Whatever members that belong to no field are added, changed or taken away, and
whatever missing fields are given their defaults, in a configuration, in its
commands and in its repositories: the outcome is the same configuration or the
same error.
-/
theorem decode_of_unnoticed_changes
    {value changed : Value}
    (unnoticed : Relation.ReflTransGen Unnoticed value changed) :
    decode changed = decode value := by
  induction unnoticed with
  | refl => rfl
  | tail _ step induction => exact (decode_of_unnoticed step).trans induction

/-- A command without arguments. -/
def commandMembers : Members :=
  [("command", .string "tsc")]

/-- A repository that leaves everything else to the defaults. -/
def repositoryMembers : Members :=
  [("name", .string "a"), ("url", .string "b")]

/-- A configuration of a command and a repository. -/
def plainLayer : Value :=
  .object [("compiler", .object commandMembers),
    ("repositories", .array [.object repositoryMembers])]

/-- The same with notes, and with some of the defaults written out. -/
def annotatedLayer : Value :=
  .object [("$note", .null),
    ("compiler", .object [("args", .array []), ("command", .string "tsc")]),
    ("outDir", .string "docs"),
    ("repositories", .array [.object [("name", .string "a"), ("note", .bool true),
      ("url", .string "b")]])]

theorem unnoticed_annotatedLayer :
    Relation.ReflTransGen Unnoticed plainLayer annotatedLayer := by
  have command : CommandSpec.Unnoticed (.object commandMembers)
      (.object (commandMembers.insert "args" (.array []))) :=
    .completed (by decide) rfl (by decide +kernel)
  have repository : Repository.Unnoticed (.object repositoryMembers)
      (.object (repositoryMembers.insert "note" (.bool true))) :=
    .given (by decide) _
  let compiler : String × Value :=
    ("compiler", .object (commandMembers.insert "args" (.array [])))
  let repositories : String × Value :=
    ("repositories", .array [.object (repositoryMembers.insert "note" (.bool true))])
  have inCommand : Unnoticed plainLayer
      (.object [compiler, ("repositories", .array [.object repositoryMembers])]) :=
    @Decode.Schema.Unnoticed.inside _ _ _ _ [] _ _ _ _ (.compiler command)
  have inRepository : Unnoticed
      (.object [compiler, ("repositories", .array [.object repositoryMembers])])
      (.object [compiler, repositories]) :=
    @Decode.Schema.Unnoticed.inside _ _ _ _ [compiler] _ _ _ _
      (@Within.repositories [] [] _ _ repository)
  have noted : Unnoticed (.object [compiler, repositories])
      (.object (Members.insert [compiler, repositories] "$note" .null)) :=
    .given (by decide) _
  have written : Unnoticed (.object (Members.insert [compiler, repositories] "$note" .null))
      (.object (Members.insert (Members.insert [compiler, repositories] "$note" .null)
        "outDir" (.string "docs"))) :=
    .completed (by decide) (by decide +kernel) (by decide +kernel)
  have whole : annotatedLayer = .object (Members.insert
      (Members.insert [compiler, repositories] "$note" .null) "outDir" (.string "docs")) := by
    decide +kernel
  rw [whole]
  exact (((Relation.ReflTransGen.single inCommand).tail inRepository).tail noted).tail written

/-- Both give the configuration that is at its defaults but for the command and the repository. -/
theorem decode_of_unnoticed_changes_annotatedLayer :
    Relation.ReflTransGen Unnoticed plainLayer annotatedLayer ∧
      decode plainLayer =
        .ok { compiler := ⟨"tsc", []⟩, repositories := [{ name := "a", url := "b" }] } ∧
      decode annotatedLayer =
        .ok { compiler := ⟨"tsc", []⟩, repositories := [{ name := "a", url := "b" }] } := by
  have plain : decode plainLayer =
      .ok { compiler := ⟨"tsc", []⟩, repositories := [{ name := "a", url := "b" }] } := by
    rfl
  exact ⟨unnoticed_annotatedLayer, plain,
    (decode_of_unnoticed_changes unnoticed_annotatedLayer).trans plain⟩

end Config

end Concordance
