import Concordance.Build
import Concordance.Proofs.Build.ProjectFiles
import Concordance.Proofs.Index.DumpFile

/-!
# What a build does

A build goes through its stages until one fails.  `Account` tells what may
come of it: for each stage that may fail the error and the calls so far, and
for a build that succeeds its report.  Each call of the compiler finds the
files ready (`ReflectReady`, `RenderReady`); in particular the site is made from
the indexed dump, whatever the tools do to the file system before.  Every build
comes to one of these ends (`account_run`).
-/

namespace Concordance

/-! ### Selecting entry points -/

theorem Selection.files_ne_nil_of_select
    {selection : Selection}
    {isFile : Path → Bool}
    {expand : Expansion}
    {points : EntryPoints}
    (selected : selection.select isFile expand = .ok points) :
    points.files ≠ [] := by
  rw [select] at selected
  rcases bind_eq_ok_iff.mp selected with ⟨excluded, -, selected⟩
  rcases bind_eq_ok_iff.mp selected with ⟨files, -, selected⟩
  split at selected
  · cases selected
  · rename_i notEmpty
    cases selected
    exact fun isNil => notEmpty (List.isEmpty_iff.mpr isNil)

/-- The entry points of a fetched repository. -/
def FetchedRepository.entryPointsIn
    (repository : FetchedRepository)
    (files : FileSystem)
    (current : Location) : Except EntryPointError EntryPoints :=
  (Selection.ofRepository repository.repository repository.name repository.directory).selectIn
    files current

/-- Looking at each of several things changes nothing. -/
theorem outcome_mapM_look
    {First Second Error : Type}
    (view : First → FileSystem → Except Error Second)
    (elements : List First)
    (files : FileSystem) :
    outcome (elements.mapM fun element => FileSystem.Step.look (view element)) files =
      (elements.mapM fun element => view element files, files) := by
  induction elements with
  | nil => rfl
  | cons element elements induction =>
      rw [List.mapM_cons, List.mapM_cons, outcome_bind, FileSystem.outcome_look]
      cases view element files with
      | error error => rfl
      | ok result =>
          dsimp only
          rw [outcome_bind, induction]
          cases elements.mapM fun element => view element files <;> rfl

namespace Build

open Project (ReflectProject RenderProject)

/-! ### Stages -/

section

variable {Error Result : Type}
variable {explain : Error → BuildError} {step : FileSystem.Step Error Result}
variable {progress after : Progress}

theorem stage_eq_ok_iff {result : Result} :
    outcome (stage explain step) progress = (.ok result, after) ↔
      ∃ files, outcome step progress.files = (.ok result, files) ∧
        after = ⟨files, progress.calls⟩ := by
  change ((outcome step progress.files).1.mapError explain,
    (⟨(outcome step progress.files).2, progress.calls⟩ : Progress)) = _ ↔ _
  rcases outcome step progress.files with ⟨_ | _, _⟩ <;> simp [Except.mapError, eq_comm]

theorem stage_eq_error_iff {error : BuildError} :
    outcome (stage explain step) progress = (.error error, after) ↔
      ∃ cause files, outcome step progress.files = (.error cause, files) ∧
        error = explain cause ∧ after = ⟨files, progress.calls⟩ := by
  change ((outcome step progress.files).1.mapError explain,
    (⟨(outcome step progress.files).2, progress.calls⟩ : Progress)) = _ ↔ _
  rcases outcome step progress.files with ⟨_ | _, _⟩ <;> simp [Except.mapError, eq_comm]

/-- A call is a stage behind a note of what it found. -/
theorem outcome_call (request : Request) :
    outcome (call request explain step) progress =
      outcome (stage explain step)
        ⟨progress.files, progress.calls ++ [⟨request, progress.files⟩]⟩ :=
  rfl

end

/-! ### What the compiler finds -/

section

variable (config : Config) (current : Location) (tools : Toolchain) (files : FileSystem)

/-- The repositories are fetched, and each of them has entry points. -/
structure Selected
    (fetched : List FetchedRepository)
    (selected : List EntryPoints)
    (found : FileSystem) : Prop where
  fetches : outcome (tools.fetch config.repositories) files = (.ok fetched, found)
  selects : List.Forall₂
    (fun repository points =>
      repository.entryPointsIn found current = .ok points ∧ points.files ≠ [])
    fetched selected

/--
What the compiler finds when it is asked for the dump: a project file with the
entry points of all repositories, in the order of the manifest.
-/
structure ReflectReady
    (fetched : List FetchedRepository)
    (selected : List EntryPoints)
    (project : ReflectProject)
    (found : FileSystem) : Prop where
  isSelected : ∃ fetchedFiles, Selected config current tools files fetched selected fetchedFiles
  isProject : project =
    ⟨config.workDir.joinText Project.projectFileName,
      config.workDir.joinText Project.dumpFileName⟩
  options : ∃ options, Project.Holds found current project.projectFile options ∧
    options.entryPoints = selected.flatMap EntryPoints.files

/-- The dump that was left is read, indexed and written back. -/
structure Indexed
    (dump : Path)
    (left : FileSystem)
    (report : Index.Report)
    (tree : Tree)
    (found : FileSystem) : Prop where
  indexes : ∃ text original, left.readText current dump = .ok text ∧
    Dump.read text = .ok original ∧ config.injector.inject original = (.ok report, tree)
  written : found.readText current dump = .ok (Dump.write tree)

/--
What the compiler finds when it is asked for the site: the indexed dump, a
project file with this dump as the only entry point, and the readme of the
indexed tree, if there is one, as the readme of the project.
-/
structure RenderReady
    (dump : Path)
    (left : FileSystem)
    (report : Index.Report)
    (tree : Tree)
    (project : RenderProject)
    (found : FileSystem) : Prop where
  isIndexed : Indexed config current dump left report tree found
  isProject : project =
    ⟨config.workDir.joinText Project.renderFileName, dump, config.outDir⟩
  options : ∃ options, Project.Holds found current project.projectFile options ∧
    options.entryPoints = [dump] ∧
    ∀ text ∈ tree.readme,
      found.readText current (config.workDir.joinText Project.readmeFileName) = .ok text ∧
        options.readme = some (config.workDir.joinText Project.readmeFileName)

/-! ### The ends of a build -/

/-- What may come of a build: the stage that failed with its error, or the report. -/
inductive Account : Except BuildError BuildReport → Progress → Prop
  | unfetched
      {cause : FetchError}
      {after : FileSystem}
      (fails : outcome (tools.fetch config.repositories) files = (.error cause, after)) :
      Account (.error (.fetch cause)) ⟨after, [⟨.fetch config.repositories, files⟩]⟩
  | unselected
      {fetched outer inner : List FetchedRepository}
      {repository : FetchedRepository}
      {cause : EntryPointError}
      {found : FileSystem}
      (fetches : outcome (tools.fetch config.repositories) files = (.ok fetched, found))
      (cut : fetched = outer ++ repository :: inner)
      (passed : ∀ earlier ∈ outer, ∃ points, earlier.entryPointsIn found current = .ok points)
      (fails : repository.entryPointsIn found current = .error cause) :
      Account (.error (.entryPoints cause)) ⟨found, [⟨.fetch config.repositories, files⟩]⟩
  | unemitted
      {fetched : List FetchedRepository}
      {selected : List EntryPoints}
      {cause : Project.ProjectError}
      {found after : FileSystem}
      (isSelected : Selected config current tools files fetched selected found)
      (fails : outcome (Project.emit current config selected) found = (.error cause, after)) :
      Account (.error (.project cause)) ⟨after, [⟨.fetch config.repositories, files⟩]⟩
  | unreflected
      {fetched : List FetchedRepository}
      {selected : List EntryPoints}
      {project : ReflectProject}
      {cause : CompileError}
      {found after : FileSystem}
      (ready : ReflectReady config current tools files fetched selected project found)
      (fails : outcome (tools.reflect project) found = (.error cause, after)) :
      Account (.error (.compile cause))
        ⟨after, [⟨.fetch config.repositories, files⟩, ⟨.reflect project, found⟩]⟩
  | unindexed
      {fetched : List FetchedRepository}
      {selected : List EntryPoints}
      {project : ReflectProject}
      {cause : Index.DumpError}
      {found left : FileSystem}
      (ready : ReflectReady config current tools files fetched selected project found)
      (reflects : outcome (tools.reflect project) found = (.ok project.dump, left))
      (fails : Index.Unindexable config.injector current project.dump project.dump left cause) :
      Account (.error (.dump cause))
        ⟨left, [⟨.fetch config.repositories, files⟩, ⟨.reflect project, found⟩]⟩
  | unprepared
      {fetched : List FetchedRepository}
      {selected : List EntryPoints}
      {project : ReflectProject}
      {report : Index.Report}
      {tree : Tree}
      {cause : Project.ProjectError}
      {found left between after : FileSystem}
      (ready : ReflectReady config current tools files fetched selected project found)
      (reflects : outcome (tools.reflect project) found = (.ok project.dump, left))
      (isIndexed : Indexed config current project.dump left report tree between)
      (fails : outcome (Project.emitRender current config project.dump tree.readme) between =
        (.error cause, after)) :
      Account (.error (.project cause))
        ⟨after, [⟨.fetch config.repositories, files⟩, ⟨.reflect project, found⟩]⟩
  | unrendered
      {fetched : List FetchedRepository}
      {selected : List EntryPoints}
      {project : ReflectProject}
      {report : Index.Report}
      {tree : Tree}
      {second : RenderProject}
      {cause : CompileError}
      {found left foundLast after : FileSystem}
      (ready : ReflectReady config current tools files fetched selected project found)
      (reflects : outcome (tools.reflect project) found = (.ok project.dump, left))
      (readyLast : RenderReady config current project.dump left report tree second foundLast)
      (fails : outcome (tools.render second) foundLast = (.error cause, after)) :
      Account (.error (.compile cause))
        ⟨after, [⟨.fetch config.repositories, files⟩, ⟨.reflect project, found⟩,
          ⟨.render second, foundLast⟩]⟩
  | built
      {fetched : List FetchedRepository}
      {selected : List EntryPoints}
      {project : ReflectProject}
      {report : Index.Report}
      {tree : Tree}
      {second : RenderProject}
      {outDir : Path}
      {found left foundLast after : FileSystem}
      (ready : ReflectReady config current tools files fetched selected project found)
      (reflects : outcome (tools.reflect project) found = (.ok project.dump, left))
      (readyLast : RenderReady config current project.dump left report tree second foundLast)
      (renders : outcome (tools.render second) foundLast = (.ok outDir, after)) :
      Account
        (.ok
          { repositories := (fetched.zip selected).map fun (fetched, selected) =>
              ⟨fetched.name, fetched.directory, selected.files.length⟩
            projectFile := project.projectFile
            renderProjectFile := second.projectFile
            dump := project.dump
            outDir := outDir
            index := report })
        ⟨after, [⟨.fetch config.repositories, files⟩, ⟨.reflect project, found⟩,
          ⟨.render second, foundLast⟩]⟩

end

/-! ### Every build comes to one of these ends -/

variable {config : Config} {current : Location} {tools : Toolchain} {files : FileSystem}

theorem outcome_selectFetched_eq_iff
    {fetched : List FetchedRepository}
    {found after : FileSystem}
    {result : Except EntryPointError (List EntryPoints)} :
    outcome (fetched.mapM (selectFetched current)) found = (result, after) ↔
      (fetched.mapM fun repository => repository.entryPointsIn found current) = result ∧
        found = after := by
  rw [← Prod.mk.injEq, ← outcome_mapM_look fun (repository : FetchedRepository) seen =>
    repository.entryPointsIn seen current]
  rfl

theorem selected_of_mapM
    {fetched : List FetchedRepository}
    {selected : List EntryPoints}
    {found : FileSystem}
    (fetches : outcome (tools.fetch config.repositories) files = (.ok fetched, found))
    (done : (fetched.mapM fun repository => repository.entryPointsIn found current) =
      .ok selected) :
    Selected config current tools files fetched selected found where
  fetches := fetches
  selects := (mapM_eq_ok_iff.mp done).imp fun _ _ isSelected =>
    ⟨isSelected, Selection.files_ne_nil_of_select isSelected⟩

theorem indexed_of_indexFile
    {left between : FileSystem}
    {report : Index.Report}
    {tree : Tree}
    (indexes : outcome (Index.indexFile config.injector current
      (config.workDir.joinText Project.dumpFileName)
      (config.workDir.joinText Project.dumpFileName)) left = (.ok (report, tree), between)) :
    Indexed config current (config.workDir.joinText Project.dumpFileName)
      left report tree between := by
  rcases Index.indexFile_eq_ok indexes with ⟨text, original, isText, isTree, injects, wrote⟩
  exact ⟨⟨text, original, isText, isTree, injects⟩,
    FileSystem.readText_of_writeText Project.fileName_dumpFile wrote⟩

/-- Writing the second project leaves the indexed dump as it was. -/
theorem renderReady_of_emitRender
    {left between found : FileSystem}
    {report : Index.Report}
    {tree : Tree}
    {project : RenderProject}
    (isIndexed : Indexed config current (config.workDir.joinText Project.dumpFileName)
      left report tree between)
    (emitted : outcome (Project.emitRender current config
      (config.workDir.joinText Project.dumpFileName) tree.readme) between =
        (.ok project, found)) :
    RenderReady config current (config.workDir.joinText Project.dumpFileName)
      left report tree project found := by
  rcases Project.emitRender_eq_ok emitted with ⟨isProject, holds, readme, keepsDump⟩
  refine ⟨⟨isIndexed.indexes, keepsDump _ isIndexed.written⟩, isProject, ⟨_, holds, rfl, ?_⟩⟩
  intro text isReadme
  refine ⟨readme text isReadme, ?_⟩
  rw [Option.mem_def.mp isReadme]
  rfl

/-- A build with a compiler that leaves the dump where the project says comes to one of its ends. -/
theorem account_run
    (faithful : ∀ project found dump left,
      outcome (tools.reflect project) found = (.ok dump, left) → dump = project.dump)
    {result : Except BuildError BuildReport}
    {progress : Progress}
    (ran : outcome (run config current tools) ⟨files, []⟩ = (result, progress)) :
    Account config current tools files result progress := by
  rw [run] at ran
  -- Fetching the repositories.
  rcases outcome_bind_cases ran with ⟨_, failed, rfl⟩ | ⟨fetched, _, done, ran⟩
  · rw [outcome_call, stage_eq_error_iff] at failed
    rcases failed with ⟨cause, after, fails, rfl, rfl⟩
    exact .unfetched fails
  rw [outcome_call, stage_eq_ok_iff] at done
  rcases done with ⟨fetchedFiles, fetches, rfl⟩
  -- Selecting their entry points.
  rcases outcome_bind_cases ran with ⟨_, failed, rfl⟩ | ⟨selected, _, done, ran⟩
  · simp only [stage_eq_error_iff, outcome_selectFetched_eq_iff] at failed
    rcases failed with ⟨cause, _, ⟨unselected, rfl⟩, rfl, rfl⟩
    rcases mapM_eq_error_iff.mp unselected with ⟨outer, repository, inner, cut, passed, fails⟩
    exact .unselected fetches cut passed fails
  simp only [stage_eq_ok_iff, outcome_selectFetched_eq_iff] at done
  rcases done with ⟨_, ⟨selects, rfl⟩, rfl⟩
  have isSelected := selected_of_mapM fetches selects
  -- Writing the first project.
  rcases outcome_bind_cases ran with ⟨_, failed, rfl⟩ | ⟨project, _, done, ran⟩
  · rw [stage_eq_error_iff] at failed
    rcases failed with ⟨cause, after, fails, rfl, rfl⟩
    exact .unemitted isSelected fails
  rw [stage_eq_ok_iff] at done
  rcases done with ⟨found, emitted, rfl⟩
  rcases Project.emit_eq_ok emitted with ⟨isProject, holds⟩
  have ready : ReflectReady config current tools files fetched selected project found :=
    ⟨⟨_, isSelected⟩, isProject, ⟨_, holds, rfl⟩⟩
  -- Asking the compiler for the dump.
  rcases outcome_bind_cases ran with ⟨_, failed, rfl⟩ | ⟨dump, _, done, ran⟩
  · rw [outcome_call, stage_eq_error_iff] at failed
    rcases failed with ⟨cause, after, fails, rfl, rfl⟩
    exact .unreflected ready fails
  rw [outcome_call, stage_eq_ok_iff] at done
  rcases done with ⟨left, reflects, rfl⟩
  obtain rfl := faithful _ _ _ _ reflects
  -- Indexing the dump.
  rcases outcome_bind_cases ran with ⟨_, failed, rfl⟩ | ⟨⟨report, tree⟩, _, done, ran⟩
  · rw [stage_eq_error_iff] at failed
    rcases failed with ⟨cause, after, fails, rfl, rfl⟩
    rcases Index.indexFile_eq_error fails with ⟨rfl, unindexable⟩
    exact .unindexed ready reflects unindexable
  rw [stage_eq_ok_iff] at done
  rcases done with ⟨between, indexes, rfl⟩
  have isIndexed : Indexed config current project.dump left report tree between := by
    rw [isProject] at indexes ⊢
    exact indexed_of_indexFile indexes
  -- Writing the second project.
  rcases outcome_bind_cases ran with ⟨_, failed, rfl⟩ | ⟨second, _, done, ran⟩
  · rw [stage_eq_error_iff] at failed
    rcases failed with ⟨cause, after, fails, rfl, rfl⟩
    exact .unprepared ready reflects isIndexed fails
  rw [stage_eq_ok_iff] at done
  rcases done with ⟨foundLast, emitted, rfl⟩
  have readyLast :
      RenderReady config current project.dump left report tree second foundLast := by
    rw [isProject] at isIndexed emitted ⊢
    exact renderReady_of_emitRender isIndexed emitted
  -- Asking the compiler for the site.
  rcases outcome_bind_cases ran with ⟨_, failed, rfl⟩ | ⟨outDir, _, done, ran⟩
  · rw [outcome_call, stage_eq_error_iff] at failed
    rcases failed with ⟨cause, after, fails, rfl, rfl⟩
    exact .unrendered ready reflects readyLast fails
  rw [outcome_call, stage_eq_ok_iff] at done
  rcases done with ⟨after, renders, rfl⟩
  cases ran
  exact .built ready reflects readyLast renders

/-! ### The calls of a build -/

section

variable {result : Except BuildError BuildReport} {progress : Progress}

/-- The tools are called in order, each at most once. -/
theorem Account.calls_prefix
    (account : Account config current tools files result progress) :
    ∃ first second, progress.calls.map Call.request <+:
      [.fetch config.repositories, .reflect first, .render second] := by
  have noFirst : ReflectProject := ⟨.empty, .empty⟩
  have noSecond : RenderProject := ⟨.empty, .empty, .empty⟩
  cases account with
  | unfetched | unselected | unemitted =>
      exact ⟨noFirst, noSecond, List.prefix_append [_] _⟩
  | @unreflected _ _ project | @unindexed _ _ project | @unprepared _ _ project =>
      exact ⟨project, noSecond, List.prefix_append [_, _] _⟩
  | @unrendered _ _ project _ _ second | @built _ _ project _ _ second =>
      exact ⟨project, second, List.prefix_rfl⟩

theorem Account.reflectReady
    (account : Account config current tools files result progress)
    {project : ReflectProject}
    {found : FileSystem}
    (called : ⟨.reflect project, found⟩ ∈ progress.calls) :
    ∃ fetched selected,
      ReflectReady config current tools files fetched selected project found := by
  cases account with
  | unfetched | unselected | unemitted => simp at called
  | unreflected ready | unindexed ready | unprepared ready | unrendered ready | built ready =>
      simp only [List.mem_cons, Call.mk.injEq, reduceCtorEq, false_and, Request.reflect.injEq,
        false_or, List.not_mem_nil, or_false] at called
      rcases called with ⟨rfl, rfl⟩
      exact ⟨_, _, ready⟩

theorem Account.renderReady
    (account : Account config current tools files result progress)
    {project : RenderProject}
    {found : FileSystem}
    (called : ⟨.render project, found⟩ ∈ progress.calls) :
    ∃ first foundFirst left report tree,
      ⟨.reflect first, foundFirst⟩ ∈ progress.calls ∧
        outcome (tools.reflect first) foundFirst = (.ok first.dump, left) ∧
        RenderReady config current first.dump left report tree project found := by
  cases account with
  | unfetched | unselected | unemitted | unreflected | unindexed | unprepared =>
      simp at called
  | unrendered ready reflects readyLast | built ready reflects readyLast =>
      simp only [List.mem_cons, Call.mk.injEq, reduceCtorEq, false_and, Request.render.injEq,
        false_or, List.not_mem_nil, or_false] at called
      rcases called with ⟨rfl, rfl⟩
      exact ⟨_, _, _, _, _, by simp, reflects, readyLast⟩

end

/--
A build ends with the first stage that fails, or with its report.  It calls its
tools in order and each at most once: the compiler for the dump only with the
entry points of all repositories before it, and the compiler for the site only
with the indexed dump and readme before it.
-/
theorem run_failFast
    (config : Config)
    (current : Location)
    (tools : Toolchain)
    (faithful : ∀ project found dump left,
      outcome (tools.reflect project) found = (.ok dump, left) → dump = project.dump)
    (files : FileSystem) :
    ∃ result progress,
      outcome (run config current tools) ⟨files, []⟩ = (result, progress) ∧
      Account config current tools files result progress ∧
      (∃ first second, progress.calls.map Call.request <+:
        [.fetch config.repositories, .reflect first, .render second]) ∧
      (∀ project found, ⟨.reflect project, found⟩ ∈ progress.calls →
        ∃ fetched selected,
          ReflectReady config current tools files fetched selected project found) ∧
      (∀ project found, ⟨.render project, found⟩ ∈ progress.calls →
        ∃ first foundFirst left report tree,
          ⟨.reflect first, foundFirst⟩ ∈ progress.calls ∧
            outcome (tools.reflect first) foundFirst = (.ok first.dump, left) ∧
            RenderReady config current first.dump left report tree project found) := by
  rcases ran : outcome (run config current tools) ⟨files, []⟩ with ⟨result, progress⟩
  have account := account_run faithful ran
  exact ⟨result, progress, rfl, account, account.calls_prefix,
    fun _ _ called => account.reflectReady called,
    fun _ _ called => account.renderReady called⟩

/-- A configured compiler leaves the dump where the project says, if it succeeds. -/
theorem faithful_ofConfig
    (launch : Launcher)
    (current : Location)
    (config : Config)
    (project : ReflectProject)
    (found : FileSystem)
    (dump : Path)
    (left : FileSystem)
    (reflects : outcome ((Toolchain.ofConfig launch current config).reflect project) found =
      (.ok dump, left)) :
    dump = project.dump := by
  change outcome (config.compiler.compile launch current project.projectFile project.dump)
    found = (.ok dump, left) at reflects
  rw [CommandSpec.compile] at reflects
  rcases outcome_bind_cases reflects with ⟨_, -, ⟨⟩⟩ | ⟨status, between, -, reflects⟩
  dsimp only at reflects
  split at reflects
  · cases reflects
  · rw [outcome_get_bind] at reflects
    split at reflects <;> cases reflects
    rfl

/-- A configuration with one repository, all files of which are entry points. -/
def coreConfig : Config :=
  { outDir := .ofText "/site"
    workDir := .ofText "/work"
    repositories := [{ name := "core", url := "git:core", entryPoints := ["*"] }] }

/-- A dump with a class, and a readme that asks for the index. -/
def coreDump : String :=
  "\x7b\"name\": \"Core\", \"kind\": 1, \"readme\": \"\x7bfullindex\x7d\", "
    ++ "\"children\": [\x7b\"name\": \"C\", \"kind\": 128\x7d]\x7d"

/-- The readme with the index where the dump asks for it. -/
def coreReadme : String :=
  "\n\n<section class=\"tsd-panel tsd-index-panel\">\n<h3>Index</h3>\n"
    ++ "<div class=\"tsd-index-content\">\n<section class=\"tsd-index-section\">\n"
    ++ "<ul class=\"tsd-index-list\">\n"
    ++ "<li class=\"tsd-kind-class tsd-parent-kind-module\">"
    ++ "<a href=\"Core.C.html\" class=\"tsd-kind-icon\">C</a></li>\n"
    ++ "</ul>\n</section>\n</div>\n</section>\n\n"

/-- Tools that leave a checkout with one file, the dump, and nothing. -/
def coreTools : Toolchain where
  fetch repositories := do
    modify fun files =>
      (files.put ["core"] .directory).put ["core", "a.ts"] (.file (.text "") false)
    pure (repositories.map fun repository => ⟨repository.name, ⟨true, ["core"]⟩, repository⟩)
  reflect project := do
    modify fun files => files.put ["work", "reflection.json"] (.file (.text coreDump) false)
    pure project.dump
  render project := pure project.outDir

theorem faithful_coreTools
    (project : ReflectProject)
    (found : FileSystem)
    (dump : Path)
    (left : FileSystem)
    (reflects : outcome (coreTools.reflect project) found = (.ok dump, left)) :
    dump = project.dump := by
  cases reflects
  rfl

/-- This build succeeds, and its site is made from the indexed dump and the indexed readme. -/
theorem run_failFast_core :
    (∀ project found dump left,
      outcome (coreTools.reflect project) found = (.ok dump, left) → dump = project.dump) ∧
      ∃ report progress,
        outcome (run coreConfig [] coreTools) ⟨FileSystem.empty, []⟩ = (.ok report, progress) ∧
        Account coreConfig [] coreTools FileSystem.empty (.ok report) progress ∧
        progress.calls.length = 3 ∧
        ∀ project found, ⟨.render project, found⟩ ∈ progress.calls →
          found.readText [] (.ofText "/work/readme.indexed.md") = .ok coreReadme ∧
          ∃ first foundFirst left report tree,
            ⟨.reflect first, foundFirst⟩ ∈ progress.calls ∧
              outcome (coreTools.reflect first) foundFirst = (.ok first.dump, left) ∧
              RenderReady coreConfig [] first.dump left report tree project found := by
  -- Only the last call finds the readme.
  have evaluated :
      (match outcome (run coreConfig [] coreTools) ⟨FileSystem.empty, []⟩ with
        | (.ok _, progress) => progress.calls.map fun call =>
            decide (call.found.readText [] (.ofText "/work/readme.indexed.md") = .ok coreReadme)
        | (.error _, _) => []) = [false, false, true] := by
    decide +kernel
  rcases run_failFast coreConfig [] coreTools faithful_coreTools FileSystem.empty with
    ⟨result, progress, ran, account, -, -, renders⟩
  rw [ran] at evaluated
  cases result with
  | error error => cases evaluated
  | ok report =>
      refine ⟨faithful_coreTools, report, progress, ran, account, ?_, fun project found called =>
        ⟨?_, renders project found called⟩⟩
      · have asMany := congrArg List.length evaluated
        rwa [List.length_map] at asMany
      · cases account with
        | built ready reflects readyLast =>
            simp only [List.map_cons, List.map_nil, List.cons.injEq, decide_eq_true_eq]
              at evaluated
            simp only [List.mem_cons, Call.mk.injEq, reduceCtorEq, false_and,
              Request.render.injEq, false_or, List.not_mem_nil, or_false] at called
            rw [called.2]
            exact evaluated.2.2.1

end Build

end Concordance
