import Concordance.FileSystem.Basic
import Concordance.Index.Injection

/-!
# Configuration

A build is described by one record: where the site and the working files
go, how the index is made, which commands install dependencies and compile,
and which repositories take part.  Everything but a repository's name and
address has a default.
-/

namespace Concordance

/-- A command with its arguments. -/
structure CommandSpec where
  command : String
  args : List String := []
  deriving DecidableEq, Repr

/-- A repository that takes part in a build. -/
structure Repository where
  name : String
  url : String
  /-- The version to check out, if it is not the default one. -/
  pinned : Option String := none
  entryPoints : List String := ["src/index.ts"]
  exclude : List String := []
  install : Bool := true
  deriving DecidableEq, Repr

/-- The version of a repository that is checked out. -/
def Repository.reference (repository : Repository) : String :=
  repository.pinned.getD "main"

/-- The description of a build. -/
structure Config where
  outDir : Path := Path.ofText "docs"
  workDir : Path := Path.ofText ".doccer"
  name : Option String := none
  readme : Option Path := none
  indexMarker : String := Index.defaultMarker
  markerPolicy : Index.MarkerPolicy := .firstOnly
  pageLayout : Index.PageLayout := .flat
  install : CommandSpec := ⟨"npm", ["install"]⟩
  compiler : CommandSpec := ⟨"npx", ["typedoc"]⟩
  repositories : List Repository := []
  deriving DecidableEq, Repr

namespace Config

/-- The configuration with its paths seen from a directory. -/
def resolve (config : Config) (base : Path) : Config :=
  { config with
    outDir := base.join config.outDir
    workDir := base.join config.workDir
    readme := config.readme.map base.join }

/-- The injector that a configuration asks for. -/
def injector (config : Config) : Index.Injector :=
  { Index.Injector.ofMarker config.indexMarker with
    policy := config.markerPolicy
    renderer := ⟨config.pageLayout, Index.defaultTitle⟩ }

end Config

/-- What can go wrong while a configuration is loaded. -/
inductive ConfigError where
  | unreadable (path : Path) (cause : OsError)
  | invalidJson (path : Path) (fault : Json.Fault)
  | invalidYaml (path : Path)
  | notAnObject (path : Path)
  | schema (mismatch : Json.Mismatch)
  deriving DecidableEq, Repr

/-- The wording of the cause of an error, if it has one. -/
def ConfigError.cause? : ConfigError → Option String
  | .unreadable _ cause => some cause.message
  | .invalidJson _ fault => some fault.message
  | .invalidYaml _ => some "<yaml>"
  | .notAnObject _ => none
  | .schema mismatch => some mismatch.message

/-- The wording of an error. -/
def ConfigError.message : ConfigError → String
  | .unreadable path cause =>
      "failed to read config file " ++ path.text ++ ": " ++ cause.message
  | .invalidJson path fault =>
      "failed to parse JSON config " ++ path.text ++ ": " ++ fault.message
  | .invalidYaml path =>
      "failed to parse YAML config " ++ path.text ++ ": <yaml>"
  | .notAnObject path =>
      "config file " ++ path.text ++ " must contain an object at the top level"
  | .schema mismatch => "invalid merged configuration: " ++ mismatch.message

/-- The wordings of an error and of its cause. -/
def ConfigError.chain (error : ConfigError) : List String :=
  error.message :: error.cause?.toList

end Concordance
