import Concordance.Config.Layers

/-!
# Configuration of a directory

A program run for a directory takes the layers of that directory up to the
root.  Two variables of the environment, if they are set and not empty,
replace the output directory and the working directory; a relative value is
seen from the directory.  Every other setting comes from the layers alone.
-/

namespace Concordance

/-- The variables of the environment with their values. -/
structure Environment where
  bindings : List (String × String) := []
  deriving DecidableEq, Repr

/-- The variable for the output directory. -/
def outDirVariable : String := "DOCCER_OUT_DIR"

/-- The variable for the working directory. -/
def workDirVariable : String := "DOCCER_WORK_DIR"

/-- The path that a variable holds, seen from a base; an empty value counts as none. -/
def Environment.path?
    (environment : Environment)
    (key : String)
    (base : Path) : Option Path :=
  match environment.bindings.lookup key with
  | none | some "" => none
  | some text => some (base.joinText text)

/-- A configuration with the directories that the environment gives in place of its own. -/
def Config.override
    (config : Config)
    (environment : Environment)
    (base : Path) : Config :=
  { config with
    outDir := (environment.path? outDirVariable base).getD config.outDir
    workDir := (environment.path? workDirVariable base).getD config.workDir }

/-- What can go wrong while the configuration of a directory is loaded. -/
inductive DirectoryConfigError where
  | unresolvable (directory : Path) (cause : OsError)
  | unloadable (directory : Path) (cause : ConfigError)
  deriving DecidableEq, Repr

/-- The wordings of an error and of its causes, outermost first. -/
def DirectoryConfigError.chain : DirectoryConfigError → List String
  | .unresolvable directory cause =>
      ["Failed to resolve " ++ directory.text, cause.message]
  | .unloadable directory cause =>
      ("Failed to load configuration for " ++ directory.text) :: cause.chain

/-- The configuration of a directory. -/
def Config.ofDirectory
    (files : FileSystem)
    (current : Location)
    (environment : Environment)
    (directory : Path) : Except DirectoryConfigError Config := do
  let base ← (directory.absolute current).mapError (.unresolvable directory)
  let config ← (LayerSearch.load ⟨base, none⟩ files current).mapError (.unloadable base)
  pure (config.override environment base)

end Concordance
