import Concordance.Config.Basic
import Concordance.Json.Mismatch

/-!
# Configuration as JSON

A record is an object with a member for each field, or an array of the
fields in order of declaration.  Members that belong to no field are ignored;
fields with a default may be missing.

Decoding goes through the members in their order, so of several mistakes the
one under the first key is reported, and a missing field only if there is no
other mistake.
-/

namespace Concordance

open Json (Value Members Mismatch Found)

namespace Decode

/-- Read a text. -/
def text : Value → Except Mismatch String
  | .string text => .ok text
  | other => .error (.invalidType other.found "a string")

/-- Read a path. -/
def path : Value → Except Mismatch Path
  | .string text => .ok (Path.ofText text)
  | other => .error (.invalidType other.found "path string")

/-- Read a truth value. -/
def bool : Value → Except Mismatch Bool
  | .bool value => .ok value
  | other => .error (.invalidType other.found "a boolean")

/-- Read something that may be null. -/
def nullable {α : Type}
    (read : Value → Except Mismatch α) :
    Value → Except Mismatch (Option α)
  | .null => .ok none
  | other => some <$> read other

/-- Read a list. -/
def list {α : Type}
    (read : Value → Except Mismatch α) :
    Value → Except Mismatch (List α)
  | .array items => items.mapM read
  | other => .error (.invalidType other.found "a sequence")

/-- The choice that a word stands for. -/
def choose {α : Type}
    (choices : List (String × α))
    (word : String) : Except Mismatch α :=
  match choices.lookup word with
  | some choice => .ok choice
  | none => .error (.unknownVariant word (choices.map Prod.fst))

/-- Read a choice: a word, or an object whose only key is the word and whose value is null. -/
def choice {α : Type}
    (choices : List (String × α)) :
    Value → Except Mismatch α
  | .string word => choose choices word
  | .object [(word, value)] => do
      let chosen ← choose choices word
      match value with
      | .null => pure chosen
      | other => throw (.invalidType other.found "unit")
  | .object _ => .error (.invalidValue .map "map with a single key")
  | other => .error (.invalidType other.found "string or map")

/-- A record: its name, its fields in order of declaration, the first of which have no default. -/
structure Schema (α : Type) where
  name : String
  required : List String
  defaulted : List String
  /-- Give a field of the record the value that a JSON value stands for. -/
  set : α → String → Value → Except Mismatch α

namespace Schema

variable {α : Type}

/-- The fields in order of declaration. -/
def fields (schema : Schema α) : List String :=
  schema.required ++ schema.defaulted

/-- Read one member; a member that belongs to no field is ignored. -/
def setMember
    (schema : Schema α)
    (record : α)
    (member : String × Value) : Except Mismatch α :=
  if member.1 ∈ schema.fields then schema.set record member.1 member.2
  else .ok record

/-- Read the members of an object on top of the defaults. -/
def decodeObject
    (schema : Schema α)
    (defaults : α)
    (members : Members) : Except Mismatch α := do
  let record ← members.foldlM schema.setMember defaults
  match schema.required.find? fun field => !members.has field with
  | some field => throw (.missingField field)
  | none => pure record

/-- Read the items of an array on top of the defaults. -/
def decodeArray
    (schema : Schema α)
    (defaults : α)
    (items : List Value) : Except Mismatch α := do
  let record ← (schema.fields.zip items).foldlM schema.setMember defaults
  if items.length < schema.required.length then
    throw (.invalidLength items.length
      ("struct " ++ schema.name ++ " with "
        ++ Nat.repr schema.fields.length ++ " elements"))
  else if schema.fields.length < items.length then
    throw (.invalidLength items.length "fewer elements in array")
  else pure record

/-- Read a record on top of the defaults. -/
def decode
    (schema : Schema α)
    (defaults : α) :
    Value → Except Mismatch α
  | .object members => schema.decodeObject defaults members
  | .array items => schema.decodeArray defaults items
  | other => .error (.invalidType other.found ("struct " ++ schema.name))

end Schema

end Decode

namespace CommandSpec

/-- Give a field a value. -/
def setField
    (spec : CommandSpec)
    (field : String)
    (value : Value) : Except Mismatch CommandSpec :=
  match field with
  | "command" => do pure { spec with command := ← Decode.text value }
  | "args" => do pure { spec with args := ← Decode.list Decode.text value }
  | _ => .ok spec

/-- The fields of a command. -/
def schema : Decode.Schema CommandSpec :=
  ⟨"CommandSpec", ["command"], ["args"], setField⟩

/-- Read a command. -/
def decode : Value → Except Mismatch CommandSpec :=
  schema.decode ⟨"", []⟩

/-- A command as a JSON object. -/
def value (spec : CommandSpec) : Value :=
  .object [("command", .string spec.command),
    ("args", .array (spec.args.map .string))]

end CommandSpec

namespace Repository

/-- Give a field a value. -/
def setField
    (repository : Repository)
    (field : String)
    (value : Value) : Except Mismatch Repository :=
  match field with
  | "name" => do pure { repository with name := ← Decode.text value }
  | "url" => do pure { repository with url := ← Decode.text value }
  | "reference" => do
      pure { repository with pinned := ← Decode.nullable Decode.text value }
  | "entryPoints" => do
      pure { repository with entryPoints := ← Decode.list Decode.text value }
  | "exclude" => do
      pure { repository with exclude := ← Decode.list Decode.text value }
  | "install" => do pure { repository with install := ← Decode.bool value }
  | _ => .ok repository

/-- The fields of a repository. -/
def schema : Decode.Schema Repository :=
  ⟨"Repository", ["name", "url"],
    ["reference", "entryPoints", "exclude", "install"], setField⟩

/-- Read a repository. -/
def decode : Value → Except Mismatch Repository :=
  schema.decode { name := "", url := "" }

/-- A repository as a JSON object. -/
def value (repository : Repository) : Value :=
  .object [("name", .string repository.name), ("url", .string repository.url),
    ("reference", repository.pinned.elim .null .string),
    ("entryPoints", .array (repository.entryPoints.map .string)),
    ("exclude", .array (repository.exclude.map .string)),
    ("install", .bool repository.install)]

end Repository

namespace Config

/-- The words for the marker policies. -/
def policyWords : List (String × Index.MarkerPolicy) :=
  [("first-only", .firstOnly), ("broadcast", .broadcast), ("reject", .reject)]

/-- The words for the page layouts. -/
def layoutWords : List (String × Index.PageLayout) :=
  [("flat", .flat), ("directories", .directories)]

/-- The word for a marker policy. -/
def policyWord : Index.MarkerPolicy → String
  | .firstOnly => "first-only"
  | .broadcast => "broadcast"
  | .reject => "reject"

/-- The word for a page layout. -/
def layoutWord : Index.PageLayout → String
  | .flat => "flat"
  | .directories => "directories"

/-- Give a field a value. -/
def setField
    (config : Config)
    (field : String)
    (value : Value) : Except Mismatch Config :=
  match field with
  | "outDir" => do pure { config with outDir := ← Decode.path value }
  | "workDir" => do pure { config with workDir := ← Decode.path value }
  | "name" => do
      pure { config with name := ← Decode.nullable Decode.text value }
  | "readme" => do
      pure { config with readme := ← Decode.nullable Decode.path value }
  | "indexMarker" => do pure { config with indexMarker := ← Decode.text value }
  | "markerPolicy" => do
      pure { config with markerPolicy := ← Decode.choice policyWords value }
  | "pageLayout" => do
      pure { config with pageLayout := ← Decode.choice layoutWords value }
  | "install" => do pure { config with install := ← CommandSpec.decode value }
  | "compiler" => do pure { config with compiler := ← CommandSpec.decode value }
  | "repositories" => do
      pure { config with
        repositories := ← Decode.list Repository.decode value }
  | _ => .ok config

/-- The fields of a configuration. -/
def schema : Decode.Schema Config :=
  ⟨"DoccerConfig", [],
    ["outDir", "workDir", "name", "readme", "indexMarker", "markerPolicy",
      "pageLayout", "install", "compiler", "repositories"], setField⟩

/-- Read a configuration. -/
def decode (value : Value) : Except ConfigError Config :=
  (schema.decode {} value).mapError .schema

/-- A path as a JSON text. -/
def pathValue (path : Path) : Value :=
  .string path.text

/-- A configuration as a JSON object. -/
def value (config : Config) : Value :=
  .object [("outDir", pathValue config.outDir),
    ("workDir", pathValue config.workDir),
    ("name", config.name.elim .null .string),
    ("readme", config.readme.elim .null pathValue),
    ("indexMarker", .string config.indexMarker),
    ("markerPolicy", .string (policyWord config.markerPolicy)),
    ("pageLayout", .string (layoutWord config.pageLayout)),
    ("install", config.install.value),
    ("compiler", config.compiler.value),
    ("repositories", .array (config.repositories.map Repository.value))]

end Config

end Concordance
