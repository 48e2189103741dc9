import Concordance.Proofs.Config.Decoding

/-!
# Decoding repositories

A repository is described by its fields alone, as a command and a configuration
are: its name and its address have to be texts, and every other field is what
its key holds or keeps its default (`Repository.decode_object_eq_ok_iff`).
-/

namespace Concordance.Repository

open Decode (Taken)
open Json (Value Members)

/-- What giving a field of a repository a value can do. -/
inductive FieldSet (repository : Repository) : String → Value → Repository → Prop where
  | name {value : Value} {text : String} (read : Decode.text value = .ok text) :
      FieldSet repository "name" value { repository with name := text }
  | url {value : Value} {text : String} (read : Decode.text value = .ok text) :
      FieldSet repository "url" value { repository with url := text }
  | pinned {value : Value} {reference : Option String}
      (read : Decode.nullable Decode.text value = .ok reference) :
      FieldSet repository "reference" value { repository with pinned := reference }
  | entryPoints {value : Value} {globs : List String}
      (read : Decode.list Decode.text value = .ok globs) :
      FieldSet repository "entryPoints" value { repository with entryPoints := globs }
  | exclude {value : Value} {globs : List String}
      (read : Decode.list Decode.text value = .ok globs) :
      FieldSet repository "exclude" value { repository with exclude := globs }
  | install {value : Value} {install : Bool} (read : Decode.bool value = .ok install) :
      FieldSet repository "install" value { repository with install := install }
  | ignored {field : String} {value : Value} (other : field ∉ schema.fields) :
      FieldSet repository field value repository

theorem fieldSet_of_setField
    {repository updated : Repository}
    {field : String}
    {value : Value}
    (set : repository.setField field value = .ok updated) :
    repository.FieldSet field value updated := by
  unfold setField at set
  split at set
  · rcases bind_eq_ok_iff.mp set with ⟨text, read, ⟨⟩⟩
    exact .name read
  · rcases bind_eq_ok_iff.mp set with ⟨text, read, ⟨⟩⟩
    exact .url read
  · rcases bind_eq_ok_iff.mp set with ⟨reference, read, ⟨⟩⟩
    exact .pinned read
  · rcases bind_eq_ok_iff.mp set with ⟨globs, read, ⟨⟩⟩
    exact .entryPoints read
  · rcases bind_eq_ok_iff.mp set with ⟨globs, read, ⟨⟩⟩
    exact .exclude read
  · rcases bind_eq_ok_iff.mp set with ⟨install, read, ⟨⟩⟩
    exact .install read
  · cases set
    exact .ignored (by simp_all [schema, Decode.Schema.fields])

theorem reads_name : schema.Reads "name" Decode.text name :=
  .of_put (fun repository text => { repository with name := text }) (by decide)
    (fun _ _ => rfl) (fun _ _ => rfl) fun set different => by
      cases fieldSet_of_setField set with
      | name => exact (different rfl).elim
      | _ => rfl

theorem reads_url : schema.Reads "url" Decode.text url :=
  .of_put (fun repository text => { repository with url := text }) (by decide)
    (fun _ _ => rfl) (fun _ _ => rfl) fun set different => by
      cases fieldSet_of_setField set with
      | url => exact (different rfl).elim
      | _ => rfl

theorem reads_pinned : schema.Reads "reference" (Decode.nullable Decode.text) pinned :=
  .of_put (fun repository reference => { repository with pinned := reference }) (by decide)
    (fun _ _ => rfl) (fun _ _ => rfl) fun set different => by
      cases fieldSet_of_setField set with
      | pinned => exact (different rfl).elim
      | _ => rfl

theorem reads_entryPoints : schema.Reads "entryPoints" (Decode.list Decode.text) entryPoints :=
  .of_put (fun repository globs => { repository with entryPoints := globs }) (by decide)
    (fun _ _ => rfl) (fun _ _ => rfl) fun set different => by
      cases fieldSet_of_setField set with
      | entryPoints => exact (different rfl).elim
      | _ => rfl

theorem reads_exclude : schema.Reads "exclude" (Decode.list Decode.text) exclude :=
  .of_put (fun repository globs => { repository with exclude := globs }) (by decide)
    (fun _ _ => rfl) (fun _ _ => rfl) fun set different => by
      cases fieldSet_of_setField set with
      | exclude => exact (different rfl).elim
      | _ => rfl

theorem reads_install : schema.Reads "install" Decode.bool install :=
  .of_put (fun repository install => { repository with install := install }) (by decide)
    (fun _ _ => rfl) (fun _ _ => rfl) fun set different => by
      cases fieldSet_of_setField set with
      | install => exact (different rfl).elim
      | _ => rfl

/-- A repository is read from the members of an object. -/
structure ReadFrom (repository : Repository) (members : Members) : Prop where
  name : members.find? "name" = some (.string repository.name)
  url : members.find? "url" = some (.string repository.url)
  pinned :
    Taken (Decode.nullable Decode.text) none (members.find? "reference") repository.pinned
  entryPoints :
    Taken (Decode.list Decode.text) ["src/index.ts"] (members.find? "entryPoints")
      repository.entryPoints
  exclude : Taken (Decode.list Decode.text) [] (members.find? "exclude") repository.exclude
  install : Taken Decode.bool true (members.find? "install") repository.install

theorem ReadFrom.unique
    {members : Members}
    {first second : Repository}
    (isFirst : first.ReadFrom members)
    (isSecond : second.ReadFrom members) :
    first = second := by
  have sameText {first second : String}
      (same : some (Value.string first) = some (Value.string second)) : first = second :=
    Value.string.inj (Option.some.inj same)
  cases first
  cases second
  rw [Repository.mk.injEq]
  exact ⟨sameText (isFirst.name.symm.trans isSecond.name),
    sameText (isFirst.url.symm.trans isSecond.url), isFirst.pinned.unique isSecond.pinned,
    isFirst.entryPoints.unique isSecond.entryPoints, isFirst.exclude.unique isSecond.exclude,
    isFirst.install.unique isSecond.install⟩

/-- A text that is required and has been read stands under its key. -/
theorem find?_of_required
    {members : Members}
    {key text default : String}
    (present : members.has key)
    (taken : Taken Decode.text default (members.find? key) text) :
    members.find? key = some (.string text) := by
  rcases Option.isSome_iff_exists.mp present with ⟨value, found⟩
  rw [found, Decode.taken_some_iff, Decode.text_eq_ok_iff] at taken
  rw [found, taken]

theorem readFrom_of_foldlM
    {members : Members}
    (distinct : members.Distinct)
    {repository : Repository}
    (run : members.foldlM schema.setMember { name := "", url := "" } = .ok repository)
    (required : ∀ key ∈ schema.required, members.has key) :
    repository.ReadFrom members where
  name := find?_of_required (required "name" (by decide)) (reads_name.foldlM distinct run)
  url := find?_of_required (required "url" (by decide)) (reads_url.foldlM distinct run)
  pinned := reads_pinned.foldlM distinct run
  entryPoints := reads_entryPoints.foldlM distinct run
  exclude := reads_exclude.foldlM distinct run
  install := reads_install.foldlM distinct run

theorem ReadFrom.settable
    {members : Members}
    {repository : Repository}
    (read : repository.ReadFrom members) :
    ∀ key ∈ schema.fields, ∀ value, members.find? key = some value →
      ∀ record, ∃ updated, schema.set record key value = .ok updated := by
  have text {key text : String} (found : members.find? key = some (.string text)) :
      Taken Decode.text "" (members.find? key) text := by
    rw [found]
    exact .read rfl
  rw [show schema.fields = ["name", "url", "reference", "entryPoints", "exclude",
    "install"] from rfl]
  simp only [List.forall_mem_cons]
  exact ⟨reads_name.settable (text read.name), reads_url.settable (text read.url),
    reads_pinned.settable read.pinned, reads_entryPoints.settable read.entryPoints,
    reads_exclude.settable read.exclude, reads_install.settable read.install, nofun⟩

/-- An object gives a repository exactly if each field is taken from its key. -/
theorem decode_object_eq_ok_iff
    {members : Members}
    (distinct : members.Distinct)
    {repository : Repository} :
    decode (.object members) = .ok repository ↔ repository.ReadFrom members := by
  rw [decode, Decode.Schema.decode, Decode.Schema.decodeObject_eq_ok_iff]
  constructor
  · rintro ⟨run, required⟩
    exact readFrom_of_foldlM distinct run required
  · intro read
    have required : ∀ key ∈ schema.required, members.has key := by
      rw [show schema.required = ["name", "url"] from rfl]
      simp [Members.has, read.name, read.url]
    rcases Decode.Schema.exists_foldlM distinct read.settable { name := "", url := "" } with
      ⟨final, run⟩
    rw [run, (readFrom_of_foldlM distinct run required).unique read]
    exact ⟨rfl, required⟩

end Concordance.Repository
