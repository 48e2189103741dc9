import Concordance.Proofs.Build.Account
import Concordance.Proofs.FileSystem.Changes

/-!
# Where the dump of a build comes from

A run of the compiler succeeds if the command does and the output is there.  The
output has then been written in this run, or it is left over from an earlier
one (`Verdict`); a run cannot tell.  A build indexes and renders what it finds
after the run, so with a dump left over it is the text that was there before
(`reflect_produced_or_leftOver`).  Where nothing is left over, the dump is the
one that the compiler has just made, and a compiler that makes none ends the
build.
-/

namespace Concordance

open FileSystem (Change Leads LeftOver Produced Written)
open Project (ReflectProject RenderProject)

/-! ### A run of the compiler -/

namespace CommandSpec

section

variable (command : CommandSpec) (current : Location) (expected : Path)
variable (changes : List Change) (before after : FileSystem)

/-- What comes of a run, told by how the command ended and where the output comes from. -/
inductive Verdict : Except OsError ExitStatus → Except CompileError Path → Prop
  | notLaunched {cause : OsError} :
      Verdict (.error cause) (.error (.notLaunched command.command cause))
  | failed {status : ExitStatus} (unsuccessful : status ≠ .exited 0) :
      Verdict (.ok status) (.error (.failed command.command status))
  | missing
      (notProduced : ¬ Produced changes current expected after)
      (notLeftOver : ¬ LeftOver changes current expected before after) :
      Verdict (.ok (.exited 0)) (.error (.missingOutput expected))
  | produced (isProduced : Produced changes current expected after) :
      Verdict (.ok (.exited 0)) (.ok expected)
  | leftOver (isLeftOver : LeftOver changes current expected before after) :
      Verdict (.ok (.exited 0)) (.ok expected)

end

variable {launch : Launcher} {before after : FileSystem} {changes : List Change}
variable {launched : Except OsError ExitStatus}

theorem verdict_compile
    (command : CommandSpec)
    (current : Location)
    (projectFile expected : Path)
    (ran : outcome (launch (command.compilation projectFile)) before = (launched, after))
    (leads : Leads changes before after) :
    ∃ result,
      outcome (command.compile launch current projectFile expected) before = (result, after) ∧
        command.Verdict current expected changes before after launched result := by
  have explained := FileSystem.outcome_explain (CompileError.notLaunched command.command)
    (launch (command.compilation projectFile)) before
  rw [ran] at explained
  rw [compile]
  cases launched with
  | error cause => exact ⟨_, outcome_bind_of_error explained _, .notLaunched⟩
  | ok status =>
      rw [outcome_bind_of_ok explained]
      by_cases success : status = .exited 0
      · subst success
        rw [if_neg (by decide), outcome_get_bind]
        by_cases isThere : after.exists? current expected = true
        · rw [if_pos isThere]
          rcases leads.exists?_iff.mp isThere with isProduced | isLeftOver
          · exact ⟨_, rfl, .produced isProduced⟩
          · exact ⟨_, rfl, .leftOver isLeftOver⟩
        · rw [if_neg isThere]
          rcases not_or.mp (mt leads.exists?_iff.mpr isThere) with ⟨notProduced, notLeftOver⟩
          exact ⟨_, rfl, .missing notProduced notLeftOver⟩
      · rw [if_pos (by simpa [ExitStatus.isSuccess] using success)]
        exact ⟨_, rfl, .failed success⟩

end CommandSpec

/-! ### A build around it -/

namespace Build

section

variable {config : Config} {current : Location} {tools : Toolchain}
variable {files found : FileSystem} {project : ReflectProject}
variable {ended : Except BuildError BuildReport} {progress : Progress}

/-- The dump is asked for once. -/
theorem reflect_mem_calls_iff
    {repositories : List Repository}
    {first : ReflectProject}
    {foundFirst : FileSystem}
    {rest : List Call}
    (asksNoMore : ∀ project found, ⟨.reflect project, found⟩ ∉ rest) :
    (⟨.reflect project, found⟩ : Call) ∈
        ⟨.fetch repositories, files⟩ :: ⟨.reflect first, foundFirst⟩ :: rest ↔
      project = first ∧ found = foundFirst := by
  simp [asksNoMore]

/-- After the dump has been asked for, a build ends with the error, or it goes on from the dump. -/
theorem Account.reflected
    (account : Account config current tools files ended progress)
    (called : ⟨.reflect project, found⟩ ∈ progress.calls) :
    (∃ cause, outcome (tools.reflect project) found = (.error cause, progress.files) ∧
      ended = .error (.compile cause) ∧
      ∀ second last, ⟨.render second, last⟩ ∉ progress.calls) ∨
    ∃ left, outcome (tools.reflect project) found = (.ok project.dump, left) ∧
      ∀ second last, ⟨.render second, last⟩ ∈ progress.calls →
        ∃ report tree, RenderReady config current project.dump left report tree second last := by
  cases account with
  | unfetched | unselected | unemitted => simp at called
  | unreflected ready fails =>
      rcases (reflect_mem_calls_iff (by simp)).mp called with ⟨rfl, rfl⟩
      exact .inl ⟨_, fails, rfl, by simp⟩
  | unindexed ready reflects | unprepared ready reflects =>
      rcases (reflect_mem_calls_iff (by simp)).mp called with ⟨rfl, rfl⟩
      exact .inr ⟨_, reflects, by simp⟩
  | @unrendered _ _ _ _ _ onlySecond _ _ _ onlyLast _ ready reflects readyLast
  | @built _ _ _ _ _ onlySecond _ _ _ onlyLast _ ready reflects readyLast =>
      rcases (reflect_mem_calls_iff (by simp)).mp called with ⟨rfl, rfl⟩
      refine .inr ⟨_, reflects, fun second last rendered => ?_⟩
      have isLast : second = onlySecond ∧ last = onlyLast := by simpa using rendered
      rcases isLast with ⟨rfl, rfl⟩
      exact ⟨_, _, readyLast⟩

/-- The way to the dump is there when the compiler is called, since the project file lies beside. -/
theorem ReflectReady.exists_enters
    {fetched : List FetchedRepository}
    {selected : List EntryPoints}
    (ready : ReflectReady config current tools files fetched selected project found) :
    project.dump = config.workDir.joinText Project.dumpFileName ∧
      ∃ directory, found.Enters current config.workDir directory := by
  rcases ready with ⟨-, rfl, _, ⟨_, _, isText, -⟩, -⟩
  rcases (FileSystem.readText_joinText_iff Project.fileName_projectFile).mp isText with
    ⟨directory, -, enters, -⟩
  exact ⟨rfl, directory, enters⟩

end

/--
However a command ends, and whatever it changes: if it cannot be launched or
does not end well, that is the error, whatever files there are.  Otherwise the
result is the dump if the command has written it or one is left over from
before, and the error that the dump is missing if neither is the case.

A build with this compiler ends with the error, the files as the command left
them; or it renders the index of the text that it found after the run.  That
text was written in this run, or it is what was under the same path before.
-/
theorem reflect_produced_or_leftOver
    (command : CommandSpec)
    (launch : Launcher)
    (current : Location)
    (project : ReflectProject)
    {found left : FileSystem}
    {launched : Except OsError ExitStatus}
    {changes : List Change}
    (ran : outcome (launch (command.compilation project.projectFile)) found = (launched, left))
    (leads : Leads changes found left) :
    ∃ result,
      outcome (command.reflect launch current project) found = (result, left) ∧
      command.Verdict current project.dump changes found left launched result ∧
      ∀ (config : Config) (tools : Toolchain) (files : FileSystem)
          (ended : Except BuildError BuildReport) (progress : Progress),
        tools.reflect = command.reflect launch current →
        outcome (run config current tools) ⟨files, []⟩ = (ended, progress) →
        ⟨.reflect project, found⟩ ∈ progress.calls →
          (∀ cause, result = .error cause →
            ended = .error (.compile cause) ∧ progress.files = left) ∧
          ∀ second last, ⟨.render second, last⟩ ∈ progress.calls →
            ∃ text original report tree,
              left.readText current project.dump = .ok text ∧
              Dump.read text = .ok original ∧
              config.injector.inject original = (.ok report, tree) ∧
              last.readText current project.dump = .ok (Dump.write tree) ∧
              (Produced changes current project.dump left ∨
                found.readText current project.dump = .ok text) := by
  rcases command.verdict_compile current project.projectFile project.dump ran leads with
    ⟨result, reflects, verdict⟩
  change outcome (command.reflect launch current project) found = (result, left) at reflects
  refine ⟨result, reflects, verdict, ?_⟩
  intro config tools files ended progress compiles built called
  have faithful : ∀ project found dump left,
      outcome (tools.reflect project) found = (.ok dump, left) → dump = project.dump := by
    rw [compiles]
    exact faithful_ofConfig launch current { config with compiler := command }
  have account := account_run faithful built
  rw [← compiles] at reflects
  rcases account.reflected called with ⟨cause, fails, isEnd, noRender⟩ | ⟨_, done, renders⟩
  · cases reflects.symm.trans fails
    refine ⟨?_, fun second last rendered => (noRender second last rendered).elim⟩
    rintro _ ⟨⟩
    exact ⟨isEnd, rfl⟩
  · cases reflects.symm.trans done
    refine ⟨nofun, fun second last rendered => ?_⟩
    rcases renders second last rendered with ⟨report, tree, ⟨⟨text, original, isText, isTree,
      injects⟩, written⟩, -⟩
    refine ⟨text, original, report, tree, isText, isTree, injects, written, ?_⟩
    cases verdict with
    | produced isProduced => exact .inl isProduced
    | leftOver isLeftOver =>
        rcases account.reflectReady called with ⟨_, _, ready⟩
        rcases ready.exists_enters with ⟨isDump, directory, enters⟩
        rw [isDump] at isLeftOver isText ⊢
        exact .inr (isLeftOver.readText Project.fileName_dumpFile enters isText)

/-! ### A dump of an earlier build -/

/-- A dump with a class that the sources may have lost since. -/
def earlierDump : String :=
  "\x7b\"name\": \"Core\", \"kind\": 1, "
    ++ "\"children\": [\x7b\"name\": \"Lost\", \"kind\": 128\x7d]\x7d"

/-- The files that an earlier build has left. -/
def earlierFiles : FileSystem :=
  ⟨[(["work"], .directory), (["work", "reflection.json"], .file (.text earlierDump) false),
    (["site"], .directory)]⟩

/-- Commands of which only version control does anything; the others end well all the same. -/
def idle : Launcher := fun invocation => do
  if invocation.program = "git" then
    modify fun files =>
      (files.put ["work", "core_main"] .directory).put ["work", "core_main", "a.ts"]
        (.file (.text "") false)
  pure (.exited 0)

theorem outcome_idle_compilation (projectFile : Path) (files : FileSystem) :
    outcome (idle (coreConfig.compiler.compilation projectFile)) files =
      (.ok (.exited 0), files) :=
  rfl

/-- With a compiler that does nothing, a build succeeds and renders the index of the earlier dump. -/
theorem reflect_produced_or_leftOver_idle :
    ∃ report progress project found second last original index tree,
      outcome (run coreConfig [] (.ofConfig idle [] coreConfig)) ⟨earlierFiles, []⟩ =
          (.ok report, progress) ∧
        ⟨.reflect project, found⟩ ∈ progress.calls ∧
        ⟨.render second, last⟩ ∈ progress.calls ∧
        outcome (idle (coreConfig.compiler.compilation project.projectFile)) found =
          (.ok (.exited 0), found) ∧
        Leads [] found found ∧
        found.readText [] project.dump = .ok earlierDump ∧
        Dump.read earlierDump = .ok original ∧
        coreConfig.injector.inject original = (.ok index, tree) ∧
        last.readText [] project.dump = .ok (Dump.write tree) := by
  -- The dump that each call finds is the earlier one, until it is indexed.
  have evaluated :
      (match outcome (run coreConfig [] (.ofConfig idle [] coreConfig)) ⟨earlierFiles, []⟩ with
        | (.ok _, progress) => progress.calls.map fun call =>
            decide (call.found.readText [] (coreConfig.workDir.joinText Project.dumpFileName) =
              .ok earlierDump)
        | (.error _, _) => []) = [true, true, false] := by
    decide +kernel
  rcases built : outcome (run coreConfig [] (.ofConfig idle [] coreConfig)) ⟨earlierFiles, []⟩ with
    ⟨ended, progress⟩
  rw [built] at evaluated
  cases ended with
  | error error => cases evaluated
  | ok report =>
      cases account_run (faithful_ofConfig idle [] coreConfig) built with
      | @built _ _ project _ _ second _ found _ last _ ready =>
          simp only [List.map_cons, List.map_nil, List.cons.injEq, decide_eq_true_eq] at evaluated
          have isEarlier : found.readText [] project.dump = .ok earlierDump :=
            ready.isProject ▸ evaluated.2.1
          have leads : Leads [] found found := fun _ => rfl
          rcases reflect_produced_or_leftOver coreConfig.compiler idle [] project
            (outcome_idle_compilation _ found) leads with ⟨_, -, -, builds⟩
          rcases (builds _ _ _ _ _ rfl built (by simp)).2 second last (by simp) with
            ⟨text, original, index, tree, isText, isTree, injects, written, -⟩
          cases isEarlier.symm.trans isText
          exact ⟨_, _, project, found, second, last, original, index, tree, rfl, by simp, by simp,
            outcome_idle_compilation _ found, leads, isEarlier, isTree, injects, written⟩

/-- A command that ends well and writes no dump does not always make the dump count as missing. -/
theorem not_forall_missingOutput :
    ¬ ∀ (command : CommandSpec) (launch : Launcher) (current : Location)
        (project : ReflectProject) (found left : FileSystem) (changes : List Change),
      outcome (launch (command.compilation project.projectFile)) found =
          (.ok (.exited 0), left) →
        Leads changes found left →
        ¬ Written changes (project.dump.target current) →
        outcome (command.reflect launch current project) found =
          (.error (.missingOutput project.dump), left) := by
  intro always
  have missing := always ⟨"npx", ["typedoc"]⟩ idle []
    ⟨.ofText "/work/typedoc.json", .ofText "/work/reflection.json"⟩ earlierFiles earlierFiles []
    rfl (fun _ => rfl) nofun
  revert missing
  decide +kernel

end Build

end Concordance
