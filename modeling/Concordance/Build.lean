import Concordance.Compiler
import Concordance.EntryPoints
import Concordance.Fetch
import Concordance.Index.DumpFile

/-!
# Building the documentation

A build fetches the repositories, selects their entry points, writes the
first project, has it compiled to a dump, puts the index into the dump,
writes the second project and has it compiled to the site.  The first stage
that fails ends the build with its error.

Fetching and compiling are parameters, so that a build can be followed with
any tools.  Every call of a tool is recorded together with the file system
that it found.
-/

namespace Concordance

open FileSystem (Step)
open Project (ReflectProject RenderProject)

/-- What a build leaves to others: any steps on the file system. -/
structure Toolchain where
  fetch : List Repository → Step FetchError (List FetchedRepository)
  reflect : ReflectProject → Step CompileError Path
  render : RenderProject → Step CompileError Path

/-- The tools that a configuration asks for: version control, and its compiler. -/
def Toolchain.ofConfig
    (launch : Launcher)
    (current : Location)
    (config : Config) : Toolchain where
  fetch := fetchAll launch current config.workDir config.install
  reflect := config.compiler.reflect launch current
  render := config.compiler.render launch current

namespace Build

/-- What can go wrong during a build. -/
inductive BuildError where
  | fetch (cause : FetchError)
  | entryPoints (cause : EntryPointError)
  | project (cause : Project.ProjectError)
  | compile (cause : CompileError)
  | dump (cause : Index.DumpError)
  deriving DecidableEq, Repr

namespace BuildError

/-- The wording of an error. -/
def message : BuildError → String
  | fetch cause => "fetch failed: " ++ cause.message
  | entryPoints cause => "entry point selection failed: " ++ cause.message
  | project cause => "project emission failed: " ++ cause.message
  | compile cause => "documentation compiler failed: " ++ cause.message
  | dump cause => cause.message

/-- The wordings of an error and of its causes, outermost first. -/
def chain (error : BuildError) : List String :=
  match error with
  | fetch cause => error.message :: cause.chain
  | entryPoints cause => error.message :: cause.chain
  | project cause => error.message :: cause.chain
  | compile cause => error.message :: cause.chain
  | dump cause => cause.chain

end BuildError

/-- What a tool was asked for. -/
inductive Request where
  | fetch (repositories : List Repository)
  | reflect (project : ReflectProject)
  | render (project : RenderProject)
  deriving DecidableEq, Repr

/-- A call of a tool, and the file system that it found. -/
structure Call where
  request : Request
  found : FileSystem
  deriving DecidableEq, Repr

/-- A build under way: the file system, and the calls so far in order. -/
structure Progress where
  files : FileSystem
  calls : List Call := []
  deriving DecidableEq, Repr

/-- A stage of a build. -/
abbrev Stage (α : Type) := ExceptT BuildError (StateM Progress) α

/-- A step on the file system as a stage. -/
def stage {ε α : Type} (explain : ε → BuildError) (step : Step ε α) : Stage α :=
  ExceptT.mk do
    let progress ← get
    let (result, files) := Id.run (step.run progress.files)
    set { progress with files := files }
    pure (result.mapError explain)

/-- A call of a tool as a stage. -/
def call {ε α : Type}
    (request : Request)
    (explain : ε → BuildError)
    (step : Step ε α) : Stage α := do
  modify fun progress =>
    { progress with calls := progress.calls ++ [⟨request, progress.files⟩] }
  stage explain step

/-- What a build says about a repository. -/
structure RepositoryReport where
  name : String
  directory : Path
  entryPoints : Nat
  deriving DecidableEq, Repr

/-- What a build did. -/
structure BuildReport where
  repositories : List RepositoryReport
  projectFile : Path
  renderProjectFile : Path
  dump : Path
  outDir : Path
  index : Index.Report
  deriving DecidableEq, Repr

/-- Select the entry points of a fetched repository. -/
def selectFetched (current : Location) (fetched : FetchedRepository) :
    Step EntryPointError EntryPoints :=
  Step.look fun files =>
    (Selection.ofRepository fetched.repository fetched.name fetched.directory).selectIn
      files current

/-- Build the documentation. -/
def run
    (config : Config)
    (current : Location)
    (tools : Toolchain) : Stage BuildReport := do
  let fetched ← call (.fetch config.repositories) .fetch
    (tools.fetch config.repositories)
  let selected ← stage .entryPoints (fetched.mapM (selectFetched current))
  let first ← stage .project (Project.emit current config selected)
  let dump ← call (.reflect first) .compile (tools.reflect first)
  let (report, indexed) ← stage .dump
    (Index.indexFile config.injector current dump dump)
  let second ← stage .project
    (Project.emitRender current config dump indexed.readme)
  let outDir ← call (.render second) .compile (tools.render second)
  pure
    { repositories := (fetched.zip selected).map fun (fetched, selected) =>
        ⟨fetched.name, fetched.directory, selected.files.length⟩
      projectFile := first.projectFile
      renderProjectFile := second.projectFile
      dump := dump
      outDir := outDir
      index := report }

end Build

end Concordance
