import Concordance.Proofs.Fetch.Completion
import Concordance.Proofs.Fetch.Steps

/-!
# Fetches do not disturb each other

If repositories have different checkouts and their commands keep to them, then
to each fetch the files look, at every moment of every run, as if it had been
alone (`Run.abreast`).  So the result of a fetch and what lies in its checkout
do not depend on when the others performed their steps (`Run.eq_fetchOne`), and
all runs that have ended come to the same as fetching everything one after the
other (`Run.fetchAll_in_any_order`).
-/

namespace Concordance

open FileSystem (AgreeOn)
open FetchEvent (ofFetch)
open FetchStep (performAll)

variable {launch : Launcher} {current : Location} {workDir : Path} {install : CommandSpec}
variable {repositories : List Repository} {files prepared : FileSystem}

/-- The locations of the checkouts of repositories. -/
def checkoutsAt (current : Location) (workDir : Path) (repositories : List Repository) :
    List Location :=
  repositories.map (Repository.checkoutAt · current workDir)

/-- Whether every command of a fetch keeps to its own one of several checkouts. -/
def Repository.KeepsTo
    (repository : Repository)
    (launch : Launcher)
    (current : Location)
    (workDir : Path)
    (install : CommandSpec)
    (checkouts : List Location) : Prop :=
  ∀ steps, repository.WholeFetch install (repository.checkoutDirectory workDir) steps →
    ∀ label invocation, FetchStep.run label invocation ∈ steps →
      Confined checkouts (repository.checkoutAt current workDir) (launch invocation)

theorem Repository.KeepsTo.confined
    {repository : Repository}
    {checkouts : List Location}
    (keeps : repository.KeepsTo launch current workDir install checkouts)
    {label : String}
    {invocation : Invocation}
    (isStep : FetchStep.run label invocation ∈
      repository.fetchSteps install (repository.checkoutDirectory workDir)) :
    Confined checkouts (repository.checkoutAt current workDir) (launch invocation) :=
  keeps _ (repository.wholeFetch_fetchSteps install _) label invocation isStep

/-! ### Runs of fetches that keep to their checkouts -/

/-- Nothing comes before the removal of the old checkout. -/
theorem Repository.eq_nil_of_fetchSteps
    {repository : Repository}
    {directory other : Path}
    {earlier later : List FetchStep}
    (steps : earlier ++ .clean other :: later = repository.fetchSteps install directory) :
    earlier = [] ∧ other = directory := by
  rcases repository.exists_commands install directory with ⟨commands, isList, areCommands⟩
  rw [isList] at steps
  cases earlier with
  | nil =>
      cases steps
      exact ⟨rfl, rfl⟩
  | cons first earlier =>
      have isCommand : FetchStep.clean other ∈ commands := by
        rw [← (List.cons.inj steps).2]
        exact List.mem_append_right _ List.mem_cons_self
      rcases areCommands _ isCommand with ⟨label, invocation, ⟨⟩⟩

section

variable (different : repositories.Pairwise fun first second =>
  (first.checkoutDirectory workDir).same (second.checkoutDirectory workDir) = false)

include different

/-- What a fetch may look at lies in no checkout but its own. -/
theorem not_prefix_of_sees
    {index other : Nat}
    {first second : Repository}
    (isFirst : repositories[index]? = some first)
    (isSecond : repositories[other]? = some second)
    (apart : other ≠ index)
    {location : Location}
    (sees : Sees (checkoutsAt current workDir repositories) (first.checkoutAt current workDir)
      location) :
    ¬ second.checkoutAt current workDir <+: location := by
  rcases sees with own | outside
  · rcases List.getElem?_eq_some_iff.mp isFirst with ⟨inRange, rfl⟩
    rcases List.getElem?_eq_some_iff.mp isSecond with ⟨otherInRange, rfl⟩
    rw [List.pairwise_iff_getElem] at different
    rcases Nat.lt_or_gt_of_ne apart with before | behind
    · intro inSecond
      exact Repository.not_prefix_of_different
        (different other index otherInRange inRange before) inSecond own
    · exact Repository.not_prefix_of_different
        (different index other inRange otherInRange behind) own
  · exact outside _ (List.mem_map_of_mem (List.mem_of_getElem? isSecond))

omit different

variable (keep : ∀ repository ∈ repositories,
  repository.KeepsTo launch current workDir install (checkoutsAt current workDir repositories))

include keep

/-- A step changes nothing outside the checkout of its fetch. -/
theorem entry?_outcome_perform
    {repository : Repository}
    (inRepositories : repository ∈ repositories)
    {step : FetchStep}
    (isStep : step ∈ repository.fetchSteps install (repository.checkoutDirectory workDir))
    (name : String)
    (files : FileSystem)
    {location : Location}
    (outside : ¬ repository.checkoutAt current workDir <+: location) :
    FileSystem.entry? (outcome (step.perform launch current name) files).2 location =
      files.entry? location := by
  cases step with
  | clean directory =>
      rcases List.append_of_mem isStep with ⟨earlier, later, cut⟩
      cases (Repository.eq_nil_of_fetchSteps cut.symm).2
      exact entry?_outcome_perform_clean outside name
  | run label invocation =>
      exact (confined_perform_run ((keep repository inRepositories).confined isStep)
        name label).writes files location outside

/-- A step in a run is one of the steps of a repository's fetch. -/
theorem Run.exists_repository_of_advance
    {trace : List FetchEvent}
    {crew next : Crew}
    (run : Run launch current (.ofRepositories workDir install repositories prepared) trace crew)
    {event : FetchEvent}
    (advance : Advance launch current crew event next) :
    ∃ repository, repositories[event.index]? = some repository ∧
      (∃ rest, (ofFetch event.index trace).map FetchEvent.step ++ event.step :: rest =
        repository.fetchSteps install (repository.checkoutDirectory workDir)) ∧
      outcome (event.step.perform launch current repository.name) crew.files =
        (event.result, next.files) ∧
      ∀ location, ¬ repository.checkoutAt current workDir <+: location →
        next.files.entry? location = crew.files.entry? location := by
  rcases advance with ⟨fetching, rest, isFetching, -, isNext, performed, -⟩
  rcases run.exists_repository isFetching with ⟨repository, isRepository⟩
  rcases run.exists_fetching isRepository with ⟨other, isOther, rfl, follows⟩
  cases isFetching.symm.trans isOther
  have steps := follows.steps
  rw [isNext] at steps
  refine ⟨_, isRepository, ⟨rest, steps⟩, performed, fun location outside => ?_⟩
  have isStep : event.step ∈
      fetching.repository.fetchSteps install (fetching.repository.checkoutDirectory workDir) := by
    rw [← steps]
    exact List.mem_append_right _ List.mem_cons_self
  have kept := entry?_outcome_perform keep (List.mem_of_getElem? isRepository) isStep
    fetching.repository.name crew.files outside
  rw [performed] at kept
  exact kept

/-- Outside of the checkouts nothing ever changes. -/
theorem Run.entry?_outside
    {trace : List FetchEvent}
    {crew : Crew}
    (run : Run launch current (.ofRepositories workDir install repositories prepared) trace crew)
    {location : Location}
    (outside : ∀ repository ∈ repositories,
      ¬ repository.checkoutAt current workDir <+: location) :
    crew.files.entry? location = prepared.entry? location := by
  induction run with
  | start => rfl
  | @step trace crew next event run advance induction =>
      rcases run.exists_repository_of_advance keep advance with
        ⟨repository, isRepository, -, -, kept⟩
      exact (kept location (outside repository (List.mem_of_getElem? isRepository))).trans
        induction

include different

variable (removable : ∀ repository ∈ repositories,
  repository.Removable current workDir (checkoutsAt current workDir repositories) prepared)

include removable

omit different in
/-- A step of a fetch does the same where it is alone, if what it may look at is the same. -/
theorem alike_of_agree
    {repository : Repository}
    (inRepositories : repository ∈ repositories)
    {earlier later : List FetchStep}
    {step : FetchStep}
    (steps : earlier ++ step :: later =
      repository.fetchSteps install (repository.checkoutDirectory workDir))
    {alone : FileSystem}
    {result : Except FetchError Unit}
    (ran : outcome (performAll launch current repository.name earlier) prepared =
      (result, alone))
    (agree : AgreeOn
      (Sees (checkoutsAt current workDir repositories) (repository.checkoutAt current workDir))
      files alone) :
    (outcome (step.perform launch current repository.name) files).1 =
        (outcome (step.perform launch current repository.name) alone).1 ∧
      AgreeOn
        (Sees (checkoutsAt current workDir repositories)
          (repository.checkoutAt current workDir))
        (outcome (step.perform launch current repository.name) files).2
        (outcome (step.perform launch current repository.name) alone).2 := by
  cases step with
  | clean directory =>
      -- The first step: the fetch has been alone with what was prepared.
      rcases Repository.eq_nil_of_fetchSteps steps with ⟨rfl, rfl⟩
      cases ran
      rw [(removable repository inRepositories).outcome_clean agree,
        (removable repository inRepositories).outcome_clean .refl]
      exact ⟨rfl, agree.without Repository.checkoutAt_ne_nil (.inl (List.prefix_refl _))⟩
  | run label invocation =>
      have isStep : FetchStep.run label invocation ∈
          repository.fetchSteps install (repository.checkoutDirectory workDir) := by
        rw [← steps]
        exact List.mem_append_right _ List.mem_cons_self
      exact (confined_perform_run ((keep repository inRepositories).confined isStep)
        repository.name label).reads files alone agree

/--
To each fetch the files look as if it had performed its steps alone: a step of
its own does there what it does here, and one of another fetch changes nothing
that it may look at.
-/
theorem Run.abreast
    {trace : List FetchEvent}
    {crew : Crew}
    (run : Run launch current (.ofRepositories workDir install repositories prepared) trace crew)
    {index : Nat}
    {repository : Repository}
    (isRepository : repositories[index]? = some repository) :
    ∃ fetching alone,
      crew.fetches[index]? = some fetching ∧
        outcome
            (performAll launch current repository.name
              ((ofFetch index trace).map FetchEvent.step))
            prepared =
          (fetching.verdict, alone) ∧
        AgreeOn
          (Sees (checkoutsAt current workDir repositories)
            (repository.checkoutAt current workDir))
          crew.files alone := by
  induction run with
  | start =>
      refine ⟨.ofRepository workDir install repository, prepared, ?_, rfl, .refl⟩
      rw [Crew.ofRepositories, List.getElem?_map, isRepository]
      rfl
  | @step trace crew next event run advance induction =>
      rcases induction with ⟨fetching, alone, isFetching, ran, agree⟩
      rcases run.exists_repository_of_advance keep advance with
        ⟨mover, isMover, ⟨later, steps⟩, performed, kept⟩
      rcases advance with ⟨moving, rest, isMoving, unfailed, -, -, proceeds⟩
      rw [proceeds]
      by_cases own : event.index = index
      · rw [own] at isMover isMoving steps ⊢
        cases isMover.symm.trans isRepository
        cases isMoving.symm.trans isFetching
        rcases alike_of_agree keep removable (List.mem_of_getElem? isRepository) steps ran agree
          with ⟨sameResult, agreeAfter⟩
        rw [performed] at agreeAfter
        have sameResult : event.result = _ := (congrArg Prod.fst performed).symm.trans sameResult
        rw [Fetching.verdict, unfailed] at ran
        refine ⟨fetching.proceed rest event.result, _, ?_, ?_, agreeAfter⟩
        · exact List.getElem?_set_self (List.getElem?_eq_some_iff.mp isFetching).1
        · rw [FetchEvent.ofFetch_concat_self own, List.map_append,
            FetchStep.outcome_performAll_append_of_ok ran, Fetching.verdict_proceed unfailed,
            sameResult]
          exact FetchStep.outcome_performAll_singleton event.step
      · refine ⟨fetching, alone, ?_, ?_, AgreeOn.trans ?_ agree⟩
        · rw [List.getElem?_set_ne own, isFetching]
        · rw [FetchEvent.ofFetch_concat_other own, ran]
        · intro location sees
          exact kept location (not_prefix_of_sees different isRepository isMover own sees)

/-- Whatever the others do, a step comes to nothing else than such a step may come to. -/
theorem Run.effect
    {trace : List FetchEvent}
    {crew next : Crew}
    (run : Run launch current (.ofRepositories workDir install repositories prepared) trace crew)
    {event : FetchEvent}
    (advance : Advance launch current crew event next) :
    ∃ repository, repositories[event.index]? = some repository ∧
      event.step.Effect launch current repository.name crew.files event.result next.files := by
  rcases run.exists_repository_of_advance keep advance with
    ⟨repository, isRepository, ⟨later, steps⟩, performed, -⟩
  refine ⟨repository, isRepository, ?_⟩
  have effect : event.step.Effect launch current repository.name crew.files
      (outcome (event.step.perform launch current repository.name) crew.files).1
      (outcome (event.step.perform launch current repository.name) crew.files).2 := by
    cases isStep : event.step with
    | run label invocation => exact FetchStep.effect_run _ _ _ _ _ _
    | clean directory =>
        -- Before its first step a fetch finds what was there in the beginning.
        rw [isStep] at steps
        rcases Repository.eq_nil_of_fetchSteps steps with ⟨isFirst, rfl⟩
        rcases run.abreast different keep removable isRepository with ⟨_, alone, -, ran, agree⟩
        rw [isFirst] at ran
        cases (Prod.mk.inj ran).2
        exact (removable repository (List.mem_of_getElem? isRepository)).effect_clean agree _ _
  rw [performed] at effect
  exact effect

/-- An old checkout is always removed; only a command can fail. -/
theorem Run.exists_command_of_error
    {trace : List FetchEvent}
    {crew : Crew}
    (run : Run launch current (.ofRepositories workDir install repositories prepared) trace crew)
    {event : FetchEvent}
    (inTrace : event ∈ trace)
    {error : FetchError}
    (failed : event.result = .error error) :
    ∃ label invocation, event.step = .run label invocation := by
  rcases run.exists_advance inTrace with ⟨earlier, before, after, front, advance⟩
  rcases front.effect different keep removable advance with ⟨repository, -, effect⟩
  rcases event with ⟨index, step, result⟩
  generalize after.files = left at effect
  cases effect with
  | missing | removed | succeeded => cases failed
  | @failed label invocation | @notLaunched label invocation => exact ⟨label, invocation, rfl⟩

/-- A fetch that has performed its first step finds no checkout. -/
theorem Run.exists?_of_cleaned
    {trace : List FetchEvent}
    {crew : Crew}
    (run : Run launch current (.ofRepositories workDir install repositories prepared) trace crew)
    {index : Nat}
    {repository : Repository}
    (isRepository : repositories[index]? = some repository)
    (cleaned : (ofFetch index trace).map FetchEvent.step =
      [.clean (repository.checkoutDirectory workDir)]) :
    crew.files.exists? current (repository.checkoutDirectory workDir) = false := by
  rcases run.abreast different keep removable isRepository with ⟨_, alone, -, ran, agree⟩
  rw [cleaned, FetchStep.outcome_performAll_singleton,
    (removable repository (List.mem_of_getElem? isRepository)).outcome_clean .refl] at ran
  have nothing : crew.files.entry? (repository.checkoutAt current workDir) = none := by
    rw [agree _ (.inl (List.prefix_refl _)), ← (Prod.mk.inj ran).2]
    exact FileSystem.entry?_without Repository.checkoutAt_ne_nil
  rw [FileSystem.exists?, ← Bool.not_eq_true, Option.isSome_iff_exists]
  rintro ⟨⟨location, entry⟩, found⟩
  rcases Repository.find?_checkoutDirectory_eq_some found with ⟨rfl, there⟩
  rw [nothing] at there
  cases there

/-! ### Runs that have ended -/

/-- A fetch that has ended has come to what it would have come to alone. -/
theorem Run.eq_fetchOne
    {trace : List FetchEvent}
    {crew : Crew}
    (run : Run launch current (.ofRepositories workDir install repositories prepared) trace crew)
    (finished : crew.Finished)
    {index : Nat}
    {repository : Repository}
    (isRepository : repositories[index]? = some repository) :
    ∃ fetching,
      crew.fetches[index]? = some fetching ∧
        fetching.result? workDir =
          some (outcome (fetchOne launch current workDir install repository) prepared).1 ∧
        AgreeOn
          (Sees (checkoutsAt current workDir repositories)
            (repository.checkoutAt current workDir))
          crew.files (outcome (fetchOne launch current workDir install repository) prepared).2 := by
  rcases run.abreast different keep removable isRepository with
    ⟨fetching, alone, isFetching, ran, agree⟩
  rcases run.exists_fetching isRepository with ⟨other, isOther, rfl, follows⟩
  cases isFetching.symm.trans isOther
  have ended := finished fetching (List.mem_of_getElem? isFetching)
  have all : outcome (performAll launch current fetching.repository.name
      (fetching.repository.fetchSteps install (fetching.repository.checkoutDirectory workDir)))
      prepared = (fetching.verdict, alone) := by
    rw [← follows.steps]
    cases failure : fetching.failure with
    | none => rw [ended failure, List.append_nil, ran]
    | some error =>
        rw [Fetching.verdict, failure] at ran ⊢
        exact FetchStep.outcome_performAll_append_of_error ran fetching.pending
  refine ⟨fetching, isFetching, ?_, ?_⟩
  · rw [outcome_fetchOne all, Fetching.verdict]
    cases failure : fetching.failure with
    | none => exact Fetching.result?_eq_ok_iff.mpr ⟨failure, ended failure, rfl⟩
    | some error => exact Fetching.result?_eq_error_iff.mpr failure
  · rw [outcome_fetchOne all]
    exact agree

/-- Any two runs that have ended have the same results, and the same entries everywhere. -/
theorem Run.unique
    {firstTrace secondTrace : List FetchEvent}
    {first second : Crew}
    (isFirst : Run launch current (.ofRepositories workDir install repositories prepared)
      firstTrace first)
    (isSecond : Run launch current (.ofRepositories workDir install repositories prepared)
      secondTrace second)
    (firstFinished : first.Finished)
    (secondFinished : second.Finished) :
    first.fetches.map (Fetching.result? workDir) =
        second.fetches.map (Fetching.result? workDir) ∧
      ∀ location, first.files.entry? location = second.files.entry? location := by
  constructor
  · rw [← List.forall₂_eq_eq_eq, List.forall₂_map_left_iff, List.forall₂_map_right_iff,
      forall₂_iff_getElem?]
    refine ⟨isFirst.length_fetches.trans isSecond.length_fetches.symm, ?_⟩
    intro index left right isLeft isRight
    rcases isFirst.exists_repository isLeft with ⟨repository, isRepository⟩
    rcases isFirst.eq_fetchOne different keep removable firstFinished isRepository with
      ⟨_, isOwn, isResult, -⟩
    rcases isSecond.eq_fetchOne different keep removable secondFinished isRepository with
      ⟨_, isOther, isOtherResult, -⟩
    cases isLeft.symm.trans isOwn
    cases isRight.symm.trans isOther
    exact isResult.trans isOtherResult.symm
  · intro location
    by_cases inside : ∃ repository ∈ repositories,
        repository.checkoutAt current workDir <+: location
    · rcases inside with ⟨repository, inRepositories, own⟩
      rcases List.mem_iff_getElem?.mp inRepositories with ⟨index, isRepository⟩
      rcases isFirst.eq_fetchOne different keep removable firstFinished isRepository with
        ⟨_, -, -, agree⟩
      rcases isSecond.eq_fetchOne different keep removable secondFinished isRepository with
        ⟨_, -, -, agreeOther⟩
      exact (agree location (.inl own)).trans (agreeOther location (.inl own)).symm
    · have outside : ∀ repository ∈ repositories,
          ¬ repository.checkoutAt current workDir <+: location :=
        fun repository inRepositories own => inside ⟨repository, inRepositories, own⟩
      exact (isFirst.entry?_outside keep outside).trans
        (isSecond.entry?_outside keep outside).symm

end

/-! ### Fetching in any order -/

/-- What can be said at every moment of a run. -/
structure Orderly
    (launch : Launcher)
    (current : Location)
    (workDir : Path)
    (install : CommandSpec)
    (repositories : List Repository)
    (trace : List FetchEvent)
    (crew : Crew) : Prop where
  /--
  Each fetch has removed, cloned, checked out and installed, in this order, as far
  as it has come: up to the first step that went wrong.
  -/
  follows : ∀ (index : Nat) (repository : Repository), repositories[index]? = some repository →
    ∃ steps,
      repository.WholeFetch install (repository.checkoutDirectory workDir) steps ∧
      ∃ fetching : Fetching, crew.fetches[index]? = some fetching ∧
        fetching.Follows steps (ofFetch index trace)
  /-- Whichever step is performed next, it is what its name says. -/
  effect : ∀ (event : FetchEvent) (next : Crew), Advance launch current crew event next →
    ∃ repository, repositories[event.index]? = some repository ∧
      event.step.Effect launch current repository.name crew.files event.result next.files
  /-- When a repository is about to be cloned, there is no checkout. -/
  cleaned : ∀ (index : Nat) (repository : Repository), repositories[index]? = some repository →
    (ofFetch index trace).map FetchEvent.step =
        [.clean (repository.checkoutDirectory workDir)] →
      crew.files.exists? current (repository.checkoutDirectory workDir) = false
  command_of_error : ∀ event ∈ trace, ∀ error, event.result = .error error →
    ∃ label invocation, event.step = .run label invocation
  /-- All repositories are reported once each of them has been fetched to the last step. -/
  reports_ok_iff : ∀ fetched, crew.Reports workDir (.ok fetched) ↔
    fetched = repositories.map (Repository.fetched · workDir) ∧
      ∀ (index : Nat) (repository : Repository), repositories[index]? = some repository →
        ∃ steps,
          repository.WholeFetch install (repository.checkoutDirectory workDir) steps ∧
          ((ofFetch index trace).map fun event => (event.step, event.result)) =
            steps.map fun step => (step, .ok ())
  reports_error_iff : ∀ error, crew.Reports workDir (.error error) ↔
    ∃ event ∈ trace, event.result = .error error

/-- Whether what a crew reports in the end, and what it leaves, are as expected. -/
structure Crew.Settled
    (crew : Crew)
    (workDir : Path)
    (expected : Except FetchError (List FetchedRepository) × FileSystem) : Prop where
  exists_reports : ∃ report, crew.Reports workDir report
  reports_ok_iff : ∀ fetched, crew.Reports workDir (.ok fetched) ↔ expected.1 = .ok fetched
  entry?_eq : ∀ location, crew.files.entry? location = FileSystem.entry? expected.2 location

/--
Repositories can be fetched in any order, step by step.  If the working
directory can be made, the checkouts are different, old ones can be removed, and
every command keeps to its own checkout, then every run is orderly and can be
brought to an end.  All runs that have ended come to the same, which is what
fetching everything one after the other comes to, itself one of these runs.
-/
theorem Run.fetchAll_in_any_order
    (made : outcome (FileSystem.makeDirectories current workDir) files = (.ok (), prepared))
    (different : repositories.Pairwise fun first second =>
      (first.checkoutDirectory workDir).same (second.checkoutDirectory workDir) = false)
    (removable : ∀ repository ∈ repositories,
      repository.Removable current workDir (checkoutsAt current workDir repositories) prepared)
    (keep : ∀ repository ∈ repositories,
      repository.KeepsTo launch current workDir install
        (checkoutsAt current workDir repositories)) :
    (∀ trace crew,
      Run launch current (.ofRepositories workDir install repositories prepared) trace crew →
        Orderly launch current workDir install repositories trace crew ∧
          (∃ more finished,
            Run launch current (.ofRepositories workDir install repositories prepared)
                (trace ++ more) finished ∧
              finished.Finished) ∧
          (crew.Finished →
            crew.Settled workDir
              (outcome (fetchAll launch current workDir install repositories) files))) ∧
      ∃ trace crew,
        Run launch current (.ofRepositories workDir install repositories prepared) trace crew ∧
          crew.Finished ∧
          crew.Reports workDir
            (outcome (fetchAll launch current workDir install repositories) files).1 ∧
          crew.files =
            (outcome (fetchAll launch current workDir install repositories) files).2 := by
  rcases Run.exists_fetchAll made install repositories with
    ⟨sequence, all, inSequence, allFinished, allReports, allFiles⟩
  refine ⟨fun trace crew run => ⟨?_, ?_, ?_⟩,
    sequence, all, inSequence, allFinished, allReports, allFiles⟩
  · exact {
      follows := fun index repository isRepository => by
        rcases run.exists_fetching isRepository with ⟨fetching, isFetching, -, follows⟩
        exact ⟨_, repository.wholeFetch_fetchSteps install _, fetching, isFetching, follows⟩
      effect := fun event next => run.effect different keep removable
      cleaned := fun index repository =>
        run.exists?_of_cleaned different keep removable
      command_of_error := fun event inTrace error =>
        run.exists_command_of_error different keep removable inTrace
      reports_ok_iff := fun fetched => by
        simp only [Repository.wholeFetch_iff, exists_eq_left]
        exact run.reports_ok_iff
      reports_error_iff := fun error => run.reports_error_iff }
  · rcases Run.exists_finished crew with ⟨more, finished, goesOn, isFinished⟩
    exact ⟨more, finished, run.trans goesOn, isFinished⟩
  · intro finished
    rcases run.unique different keep removable inSequence finished allFinished with
      ⟨sameResults, sameEntries⟩
    refine ⟨finished.exists_reports workDir, fun fetched => ?_, allFiles ▸ sameEntries⟩
    rw [Crew.reports_ok_iff_map, sameResults, ← Crew.reports_ok_iff_map]
    constructor
    · intro reports
      exact reports.eq_ok allReports
    · intro isReport
      exact isReport ▸ allReports

/-- A command that puts an entry somewhere. -/
def placing (location : Location) (entry : Entry) : FileSystem.Step OsError ExitStatus := do
  modify fun files => files.put location entry
  pure (.exited 0)

theorem confined_placing
    {own location : Location}
    (inside : own <+: location)
    (below : location ≠ [])
    (checkouts : List Location)
    (entry : Entry) :
    Confined checkouts own (placing location entry) where
  reads _ _ agree := ⟨rfl, agree.put below entry⟩
  writes files other outside := by
    have elsewhere : other ≠ location := by
      rintro rfl
      exact outside inside
    exact (FileSystem.lookup_put below).trans (if_neg elsewhere)

/-- Commands that leave a directory, a file with the version in it, and one for the dependencies. -/
def sketchLauncher : Launcher := fun invocation =>
  match invocation.args, invocation.directory with
  | ["clone", _, directory], _ =>
      placing ((Path.ofText directory).target ["site"]) .directory
  | ["-C", directory, "checkout", version], _ =>
      placing ((Path.ofText directory).target ["site"] ++ ["HEAD"]) (.file (.text version) false)
  | _, some directory =>
      placing (directory.target ["site"] ++ ["installed"]) (.file (.text "") false)
  | _, none => pure (.exited 1)

theorem keepsTo_sketchLauncher
    {repository : Repository}
    {workDir : Path}
    (written : Path.ofText (repository.checkoutDirectory workDir).text =
      repository.checkoutDirectory workDir)
    (checkouts : List Location) :
    repository.KeepsTo sketchLauncher ["site"] workDir ⟨"npm", ["install"]⟩ checkouts := by
  have below (name : String) (entry : Entry) :
      Confined checkouts (repository.checkoutAt ["site"] workDir)
        (placing (repository.checkoutAt ["site"] workDir ++ [name]) entry) :=
    confined_placing (List.prefix_append _ _) (List.concat_ne_nil _ _) checkouts entry
  let directory := repository.checkoutDirectory workDir
  have clones : Confined checkouts (repository.checkoutAt ["site"] workDir)
      (sketchLauncher ⟨"git", ["clone", repository.url, directory.text], none⟩) := by
    change Confined _ _ (placing ((Path.ofText directory.text).target ["site"]) .directory)
    rw [written]
    exact confined_placing (List.prefix_refl _) Repository.checkoutAt_ne_nil checkouts _
  have checksOut : Confined checkouts (repository.checkoutAt ["site"] workDir)
      (sketchLauncher
        ⟨"git", ["-C", directory.text, "checkout", repository.reference], none⟩) := by
    change Confined _ _ (placing ((Path.ofText directory.text).target ["site"] ++ ["HEAD"])
      (.file (.text repository.reference) false))
    rw [written]
    exact below "HEAD" _
  have installs : Confined checkouts (repository.checkoutAt ["site"] workDir)
      (sketchLauncher ⟨"npm", ["install"], some directory⟩) := below "installed" _
  intro steps whole label invocation isStep
  cases whole with
  | bare =>
      simp only [List.mem_cons, reduceCtorEq, Repository.cloning, Repository.checkingOut,
        FetchStep.run.injEq, List.not_mem_nil, or_false, false_or] at isStep
      rcases isStep with ⟨-, rfl⟩ | ⟨-, rfl⟩
      · exact clones
      · exact checksOut
  | installed =>
      simp only [List.mem_cons, reduceCtorEq, Repository.cloning, Repository.checkingOut,
        CommandSpec.installing, FetchStep.run.injEq, List.not_mem_nil, or_false, false_or]
        at isStep
      rcases isStep with ⟨-, rfl⟩ | ⟨-, rfl⟩ | ⟨-, rfl⟩
      · exact clones
      · exact checksOut
      · exact installs

/-- A guide with dependencies, and a pinned tool without any. -/
def sketchRepositories : List Repository :=
  [{ name := "guide", url := "git:guide" },
    { name := "tools/cli", url := "git:cli", pinned := some "v1", install := false }]

/-- A site in which the guide has been checked out before. -/
def sketchFiles : FileSystem :=
  ⟨[(["site"], .directory),
    (["site", "work"], .directory),
    (["site", "work", "guide_main"], .directory),
    (["site", "work", "guide_main", "stale"], .file (.text "old") false)]⟩

/--
However the fetches of the two repositories alternate, both are reported, and
each one has run its own commands.  The old checkout is gone, each repository
has its own version, and only the guide has its dependencies.
-/
theorem Run.fetchAll_in_any_order_sketch :
    outcome (FileSystem.makeDirectories ["site"] (.ofText "work")) sketchFiles =
        (.ok (), sketchFiles) ∧
      (sketchRepositories.Pairwise fun first second =>
        (first.checkoutDirectory (.ofText "work")).same
          (second.checkoutDirectory (.ofText "work")) = false) ∧
      (∀ repository ∈ sketchRepositories,
        repository.Removable ["site"] (.ofText "work")
          (checkoutsAt ["site"] (.ofText "work") sketchRepositories) sketchFiles) ∧
      (∀ repository ∈ sketchRepositories,
        repository.KeepsTo sketchLauncher ["site"] (.ofText "work") ⟨"npm", ["install"]⟩
          (checkoutsAt ["site"] (.ofText "work") sketchRepositories)) ∧
      ∀ trace crew,
        Run sketchLauncher ["site"]
            (.ofRepositories (.ofText "work") ⟨"npm", ["install"]⟩ sketchRepositories sketchFiles)
            trace crew →
          crew.Finished →
            crew.Reports (.ofText "work")
                (.ok (sketchRepositories.map (Repository.fetched · (.ofText "work")))) ∧
              ((ofFetch 0 trace).map fun event => (event.step, event.result)) =
                [(.clean (.ofText "work/guide_main"), .ok ()),
                  (.run "git clone"
                    ⟨"git", ["clone", "git:guide", "work/guide_main"], none⟩, .ok ()),
                  (.run "git checkout"
                    ⟨"git", ["-C", "work/guide_main", "checkout", "main"], none⟩, .ok ()),
                  (.run "npm"
                    ⟨"npm", ["install"], some (.ofText "work/guide_main")⟩, .ok ())] ∧
              ((ofFetch 1 trace).map fun event => (event.step, event.result)) =
                [(.clean (.ofText "work/tools_cli_v1"), .ok ()),
                  (.run "git clone"
                    ⟨"git", ["clone", "git:cli", "work/tools_cli_v1"], none⟩, .ok ()),
                  (.run "git checkout"
                    ⟨"git", ["-C", "work/tools_cli_v1", "checkout", "v1"], none⟩, .ok ())] ∧
              crew.files.entry? ["site", "work", "guide_main", "stale"] = none ∧
              crew.files.entry? ["site", "work", "guide_main", "HEAD"] =
                some (.file (.text "main") false) ∧
              crew.files.entry? ["site", "work", "guide_main", "installed"] =
                some (.file (.text "") false) ∧
              crew.files.entry? ["site", "work", "tools_cli_v1", "HEAD"] =
                some (.file (.text "v1") false) ∧
              crew.files.entry? ["site", "work", "tools_cli_v1", "installed"] = none := by
  have made : outcome (FileSystem.makeDirectories ["site"] (.ofText "work")) sketchFiles =
      (.ok (), sketchFiles) := by
    decide +kernel
  have different : sketchRepositories.Pairwise fun first second =>
      (first.checkoutDirectory (.ofText "work")).same
        (second.checkoutDirectory (.ofText "work")) = false := by
    decide +kernel
  have removable : ∀ repository ∈ sketchRepositories,
      repository.Removable ["site"] (.ofText "work")
        (checkoutsAt ["site"] (.ofText "work") sketchRepositories) sketchFiles := by
    have clear : ∀ location ∈ Path.way ["site"] (.ofText "work"),
        ∀ checkout ∈ checkoutsAt ["site"] (.ofText "work") sketchRepositories,
          ¬ checkout <+: location := by
      decide +kernel
    simp only [sketchRepositories, List.forall_mem_cons]
    refine ⟨Repository.removable_of_clear clear ?_, Repository.removable_of_clear clear ?_, nofun⟩
    · intro entry _
      decide +kernel
    · intro entry there
      cases there
  have keep : ∀ repository ∈ sketchRepositories,
      repository.KeepsTo sketchLauncher ["site"] (.ofText "work") ⟨"npm", ["install"]⟩
        (checkoutsAt ["site"] (.ofText "work") sketchRepositories) := by
    simp only [sketchRepositories, List.forall_mem_cons]
    exact ⟨keepsTo_sketchLauncher (by decide +kernel) _,
      keepsTo_sketchLauncher (by decide +kernel) _, nofun⟩
  refine ⟨made, different, removable, keep, fun trace crew run finished => ?_⟩
  rcases (Run.fetchAll_in_any_order made different removable keep).1 trace crew run with
    ⟨orderly, -, settles⟩
  have settled := settles finished
  have reported : crew.Reports (.ofText "work")
      (.ok (sketchRepositories.map (Repository.fetched · (.ofText "work")))) :=
    (settled.reports_ok_iff _).mpr (by decide +kernel)
  have performed := ((orderly.reports_ok_iff _).mp reported).2
  refine ⟨reported, ?_, ?_, ?_, ?_, ?_, ?_, ?_⟩
  · rcases performed 0 _ rfl with ⟨_, declines | asks, isTrace⟩
    · cases declines
    · rw [isTrace]
      decide +kernel
  · rcases performed 1 _ rfl with ⟨_, declines | asks, isTrace⟩
    · rw [isTrace]
      decide +kernel
    · cases asks
  all_goals
    rw [settled.entry?_eq]
    decide +kernel

end Concordance
