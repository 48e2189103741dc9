import Concordance.Fetch
import Concordance.Proofs.Failure

/-!
# Fetches at the same time

All fetches of a configuration work at the same time on the same files.  In
each step of a run any one of them that has not ended performs the next step of
its own (`Advance`), and a run is any sequence of such steps (`Run`).  Whatever
the others do in between, a fetch performs its steps in their order and stops
at the first one that fails (`Run.follows`).  So all repositories are reported
once each step has gone well (`Run.reports_ok_iff`), and an error once a step
has failed with it (`Run.reports_error_iff`).
-/

namespace Concordance

/-- A fetch under way: the steps that are left, and the error that has ended it if there was one. -/
structure Fetching where
  repository : Repository
  pending : List FetchStep
  failure : Option FetchError := none

/-- The fetches in the order of the configuration, and the files on which they work. -/
structure Crew where
  files : FileSystem
  fetches : List Fetching

/-- A step that one of the fetches has performed. -/
structure FetchEvent where
  index : Nat
  step : FetchStep
  result : Except FetchError Unit

/-- The steps that one fetch has performed in a run. -/
def FetchEvent.ofFetch (index : Nat) (trace : List FetchEvent) : List FetchEvent :=
  trace.filter fun event => event.index = index

/-- What is known about a repository when it has been fetched. -/
def Repository.fetched (repository : Repository) (workDir : Path) : FetchedRepository :=
  ⟨repository.name, repository.checkoutDirectory workDir, repository⟩

namespace Fetching

/-- A fetch that begins. -/
def ofRepository (workDir : Path) (install : CommandSpec) (repository : Repository) : Fetching where
  repository := repository
  pending := repository.fetchSteps install (repository.checkoutDirectory workDir)

/-- How a fetch has gone so far. -/
def verdict (fetching : Fetching) : Except FetchError Unit :=
  fetching.failure.elim (.ok ()) .error

/-- How a fetch goes on when a step has given a result. -/
def proceed (fetching : Fetching) (rest : List FetchStep) : Except FetchError Unit → Fetching
  | .ok () => { fetching with pending := rest }
  | .error error => { fetching with pending := rest, failure := some error }

/-- The result of a fetch that has ended. -/
def result? (workDir : Path) (fetching : Fetching) : Option (Except FetchError FetchedRepository) :=
  match fetching.failure, fetching.pending with
  | some error, _ => some (.error error)
  | none, [] => some (.ok (fetching.repository.fetched workDir))
  | none, _ :: _ => none

/-- Whether a fetch has failed or has performed all its steps. -/
def Ended (fetching : Fetching) : Prop :=
  fetching.failure = none → fetching.pending = []

end Fetching

namespace Crew

/-- All fetches at their beginning. -/
def ofRepositories
    (workDir : Path)
    (install : CommandSpec)
    (repositories : List Repository)
    (files : FileSystem) : Crew :=
  ⟨files, repositories.map (Fetching.ofRepository workDir install)⟩

/-- Whether all fetches have ended. -/
def Finished (crew : Crew) : Prop :=
  ∀ fetching ∈ crew.fetches, fetching.Ended

/--
What may be reported: all repositories, in their order, if all have been
fetched, or the error of any fetch that has failed.
-/
inductive Reports (workDir : Path) (crew : Crew) :
    Except FetchError (List FetchedRepository) → Prop
  | fetched
      {fetched : List FetchedRepository}
      (each : List.Forall₂
        (fun fetching repository => fetching.result? workDir = some (.ok repository))
        crew.fetches fetched) :
      Reports workDir crew (.ok fetched)
  | failed
      {fetching : Fetching}
      {error : FetchError}
      (inCrew : fetching ∈ crew.fetches)
      (isResult : fetching.result? workDir = some (.error error)) :
      Reports workDir crew (.error error)

end Crew

/-- One step of a run: a fetch that has not ended performs its next step. -/
inductive Advance
    (launch : Launcher)
    (current : Location)
    (crew : Crew)
    (event : FetchEvent)
    (next : Crew) : Prop
  | perform
      (fetching : Fetching)
      (rest : List FetchStep)
      (isFetching : crew.fetches[event.index]? = some fetching)
      (unfailed : fetching.failure = none)
      (isNext : fetching.pending = event.step :: rest)
      (performed :
        outcome (event.step.perform launch current fetching.repository.name) crew.files =
          (event.result, next.files))
      (proceeds :
        next.fetches = crew.fetches.set event.index (fetching.proceed rest event.result)) :
      Advance launch current crew event next

/-- Any number of steps, by any fetches, with what they performed. -/
inductive Run (launch : Launcher) (current : Location) (start : Crew) :
    List FetchEvent → Crew → Prop
  | start : Run launch current start [] start
  | step
      {trace : List FetchEvent}
      {crew next : Crew}
      {event : FetchEvent}
      (run : Run launch current start trace crew)
      (advance : Advance launch current crew event next) :
      Run launch current start (trace ++ [event]) next

variable {launch : Launcher} {current : Location}

@[simp]
theorem Fetching.repository_proceed
    (fetching : Fetching)
    (rest : List FetchStep)
    (result : Except FetchError Unit) :
    (fetching.proceed rest result).repository = fetching.repository := by
  cases result <;> rfl

theorem Fetching.verdict_proceed
    {fetching : Fetching}
    (unfailed : fetching.failure = none)
    (rest : List FetchStep)
    (result : Except FetchError Unit) :
    (fetching.proceed rest result).verdict = result := by
  cases result with
  | ok =>
      rw [proceed, verdict, unfailed]
      rfl
  | error error => rfl

/-! ### The steps of one fetch -/

namespace FetchEvent

theorem ofFetch_concat_self
    {index : Nat}
    {event : FetchEvent}
    (own : event.index = index)
    (trace : List FetchEvent) :
    ofFetch index (trace ++ [event]) = ofFetch index trace ++ [event] := by
  rw [ofFetch, List.filter_append, List.filter_cons_of_pos (by simpa using own)]
  rfl

theorem ofFetch_concat_other
    {index : Nat}
    {event : FetchEvent}
    (other : event.index ≠ index)
    (trace : List FetchEvent) :
    ofFetch index (trace ++ [event]) = ofFetch index trace := by
  rw [ofFetch, List.filter_append, List.filter_cons_of_neg (by simpa using other),
    List.filter_nil, List.append_nil]
  rfl

/-- How steps have gone: all well, or the last one wrong and those before it well. -/
inductive Went : List FetchEvent → Option FetchError → Prop
  | well
      {events : List FetchEvent}
      (each : ∀ event ∈ events, event.result = .ok ()) :
      Went events none
  | wrong
      {earlier : List FetchEvent}
      {last : FetchEvent}
      {error : FetchError}
      (each : ∀ event ∈ earlier, event.result = .ok ())
      (failed : last.result = .error error) :
      Went (earlier ++ [last]) (some error)

end FetchEvent

open FetchEvent (ofFetch Went)

namespace FetchEvent.Went

variable {events : List FetchEvent} {failure : Option FetchError}

theorem eq_none_iff (went : Went events failure) :
    failure = none ↔ ∀ event ∈ events, event.result = .ok () := by
  cases went with
  | well each => exact iff_of_true rfl each
  | @wrong earlier last error each failed =>
      refine iff_of_false nofun fun all => ?_
      have well := all last (List.mem_append_right _ List.mem_cons_self)
      rw [failed] at well
      cases well

theorem eq_some_iff (went : Went events failure) {error : FetchError} :
    failure = some error ↔ ∃ event ∈ events, event.result = .error error := by
  cases went with
  | well each =>
      refine iff_of_false nofun ?_
      rintro ⟨event, inEvents, failed⟩
      rw [each event inEvents] at failed
      cases failed
  | @wrong earlier last found each failed =>
      constructor
      · rintro ⟨⟩
        exact ⟨last, List.mem_append_right _ List.mem_cons_self, failed⟩
      · rintro ⟨event, inEvents, isError⟩
        rcases List.mem_append.mp inEvents with inEarlier | isLast
        · rw [each event inEarlier] at isError
          cases isError
        · rw [List.mem_singleton.mp isLast, failed] at isError
          cases isError
          rfl

end FetchEvent.Went

/-- Whether a fetch has performed steps in their order, each after the one before had gone well. -/
structure Fetching.Follows
    (fetching : Fetching)
    (steps : List FetchStep)
    (performed : List FetchEvent) : Prop where
  steps : performed.map FetchEvent.step ++ fetching.pending = steps
  went : Went performed fetching.failure

theorem Fetching.Follows.proceed
    {fetching : Fetching}
    {steps : List FetchStep}
    {performed : List FetchEvent}
    (follows : fetching.Follows steps performed)
    (unfailed : fetching.failure = none)
    {event : FetchEvent}
    {rest : List FetchStep}
    (isNext : fetching.pending = event.step :: rest) :
    (fetching.proceed rest event.result).Follows steps (performed ++ [event]) := by
  rcases follows with ⟨isSteps, went⟩
  rw [unfailed] at went
  cases went with
  | well each =>
      have continued : (performed ++ [event]).map FetchEvent.step ++ rest = steps := by
        rw [← isSteps, isNext, List.map_append, List.append_assoc]
        rfl
      cases isResult : event.result with
      | ok =>
          refine ⟨continued, ?_⟩
          rw [Fetching.proceed, unfailed]
          exact .well (List.forall_mem_append.mpr
            ⟨each, List.forall_mem_singleton.mpr isResult⟩)
      | error error => exact ⟨continued, .wrong each isResult⟩

/-- Whatever the others do in between, a fetch follows its steps. -/
theorem Run.follows
    {start crew : Crew}
    {trace : List FetchEvent}
    (run : Run launch current start trace crew)
    {index : Nat}
    {begun : Fetching}
    (isBegun : start.fetches[index]? = some begun)
    (unfailed : begun.failure = none) :
    ∃ fetching, crew.fetches[index]? = some fetching ∧
      fetching.repository = begun.repository ∧
      fetching.Follows begun.pending (ofFetch index trace) := by
  induction run with
  | start => exact ⟨begun, isBegun, rfl, rfl, unfailed ▸ .well nofun⟩
  | @step trace crew next event run advance induction =>
      rcases induction with ⟨fetching, isFetching, sameRepository, follows⟩
      rcases advance with ⟨moving, rest, isMoving, going, isNext, -, proceeds⟩
      rw [proceeds]
      by_cases own : event.index = index
      · rw [own] at isMoving ⊢
        cases isMoving.symm.trans isFetching
        refine ⟨fetching.proceed rest event.result, ?_, ?_, ?_⟩
        · rw [List.getElem?_set_self (List.getElem?_eq_some_iff.mp isFetching).1]
        · rw [Fetching.repository_proceed, sameRepository]
        · rw [FetchEvent.ofFetch_concat_self own]
          exact follows.proceed going isNext
      · refine ⟨fetching, ?_, sameRepository, ?_⟩
        · rw [List.getElem?_set_ne own, isFetching]
        · rw [FetchEvent.ofFetch_concat_other own]
          exact follows

/-- The fetch at an index is that of the repository there, and follows its steps. -/
theorem Run.exists_fetching
    {workDir : Path}
    {install : CommandSpec}
    {repositories : List Repository}
    {files : FileSystem}
    {crew : Crew}
    {trace : List FetchEvent}
    (run : Run launch current (.ofRepositories workDir install repositories files) trace crew)
    {index : Nat}
    {repository : Repository}
    (isRepository : repositories[index]? = some repository) :
    ∃ fetching, crew.fetches[index]? = some fetching ∧
      fetching.repository = repository ∧
      fetching.Follows (repository.fetchSteps install (repository.checkoutDirectory workDir))
        (ofFetch index trace) := by
  have isBegun : (Crew.ofRepositories workDir install repositories files).fetches[index]? =
      some (.ofRepository workDir install repository) := by
    rw [Crew.ofRepositories, List.getElem?_map, isRepository]
    rfl
  exact run.follows isBegun rfl

theorem Run.length_fetches
    {start crew : Crew}
    {trace : List FetchEvent}
    (run : Run launch current start trace crew) :
    crew.fetches.length = start.fetches.length := by
  induction run with
  | start => rfl
  | step _ advance induction =>
      rcases advance with ⟨fetching, rest, -, -, -, -, proceeds⟩
      rw [proceeds, List.length_set, induction]

/-! ### Reports -/

namespace Fetching

variable {fetching : Fetching} {workDir : Path}

theorem result?_eq_ok_iff {fetched : FetchedRepository} :
    fetching.result? workDir = some (.ok fetched) ↔
      fetching.failure = none ∧ fetching.pending = [] ∧
        fetching.repository.fetched workDir = fetched := by
  rw [result?]
  cases fetching.failure with
  | some error => simp
  | none => cases fetching.pending <;> simp

theorem result?_eq_error_iff {error : FetchError} :
    fetching.result? workDir = some (.error error) ↔ fetching.failure = some error := by
  rw [result?]
  cases fetching.failure with
  | some error => simp
  | none => cases fetching.pending <;> simp

theorem ended_iff (workDir : Path) :
    fetching.Ended ↔ ∃ result, fetching.result? workDir = some result := by
  rw [Ended, result?]
  cases fetching.failure with
  | some error => simp
  | none => cases fetching.pending <;> simp

/-- A fetch has a good result once it has performed all its steps, and all of them well. -/
theorem Follows.exists_ok_iff
    {steps : List FetchStep}
    {performed : List FetchEvent}
    (follows : fetching.Follows steps performed) :
    fetching.result? workDir = some (.ok (fetching.repository.fetched workDir)) ↔
      (performed.map fun event => (event.step, event.result)) =
        steps.map fun step => (step, .ok ()) := by
  rw [result?_eq_ok_iff, and_iff_left rfl, follows.went.eq_none_iff]
  constructor
  · rintro ⟨each, done⟩
    rw [← follows.steps, done, List.append_nil, List.map_map]
    refine List.map_congr_left fun event inPerformed => ?_
    rw [each event inPerformed]
    rfl
  · intro all
    have isSteps : performed.map FetchEvent.step = steps := by
      have firsts := congrArg (List.map Prod.fst) all
      rw [List.map_map, List.map_map] at firsts
      exact firsts.trans (List.map_id steps)
    have done : fetching.pending = [] := by
      have split := follows.steps
      rw [isSteps] at split
      exact List.append_right_eq_self.mp split
    refine ⟨fun event inPerformed => ?_, done⟩
    have inBoth := List.mem_map_of_mem (f := fun event => (event.step, event.result)) inPerformed
    rw [all] at inBoth
    rcases List.mem_map.mp inBoth with ⟨step, -, same⟩
    exact (congrArg Prod.snd same).symm

end Fetching

section Reports

variable {workDir : Path} {install : CommandSpec} {repositories : List Repository}
variable {files : FileSystem} {crew : Crew} {trace : List FetchEvent}

/-- Whatever was performed in a run was performed by a step of it. -/
theorem Run.exists_advance
    {start : Crew}
    (run : Run launch current start trace crew)
    {event : FetchEvent}
    (inTrace : event ∈ trace) :
    ∃ earlier before after,
      Run launch current start earlier before ∧ Advance launch current before event after := by
  induction run with
  | start => cases inTrace
  | @step trace crew next last run advance induction =>
      rcases List.mem_append.mp inTrace with inFront | isLast
      · exact induction inFront
      · rw [List.mem_singleton.mp isLast]
        exact ⟨trace, crew, next, run, advance⟩

theorem Run.exists_repository
    (run : Run launch current (.ofRepositories workDir install repositories files) trace crew)
    {index : Nat}
    {fetching : Fetching}
    (isFetching : crew.fetches[index]? = some fetching) :
    ∃ repository, repositories[index]? = some repository := by
  have sameLength : crew.fetches.length = repositories.length :=
    run.length_fetches.trans (List.length_map _)
  have inRange := (List.getElem?_eq_some_iff.mp isFetching).1
  exact ⟨_, List.getElem?_eq_getElem (sameLength ▸ inRange)⟩

/-- All repositories are reported, in their order, once each step of each fetch has gone well. -/
theorem Run.reports_ok_iff
    (run : Run launch current (.ofRepositories workDir install repositories files) trace crew)
    {fetched : List FetchedRepository} :
    crew.Reports workDir (.ok fetched) ↔
      fetched = repositories.map (Repository.fetched · workDir) ∧
        ∀ index repository, repositories[index]? = some repository →
          ((ofFetch index trace).map fun event => (event.step, event.result)) =
            (repository.fetchSteps install (repository.checkoutDirectory workDir)).map
              fun step => (step, .ok ()) := by
  have sameLength : crew.fetches.length = repositories.length :=
    run.length_fetches.trans (List.length_map _)
  constructor
  · rintro ⟨each⟩
    rcases forall₂_iff_getElem?.mp each with ⟨asMany, each⟩
    have isFetched {index : Nat} {repository : Repository}
        (isRepository : repositories[index]? = some repository) :
        fetched[index]? = some (repository.fetched workDir) ∧
          ((ofFetch index trace).map fun event => (event.step, event.result)) =
            (repository.fetchSteps install (repository.checkoutDirectory workDir)).map
              fun step => (step, .ok ()) := by
      rcases run.exists_fetching isRepository with ⟨fetching, isFetching, rfl, follows⟩
      have inRange := (List.getElem?_eq_some_iff.mp isFetching).1
      have isResult := each index fetching _ isFetching
        (List.getElem?_eq_getElem (asMany ▸ inRange))
      have same := (Fetching.result?_eq_ok_iff.mp isResult).2.2
      rw [← same] at isResult
      refine ⟨?_, follows.exists_ok_iff.mp isResult⟩
      rw [List.getElem?_eq_getElem (asMany ▸ inRange), same]
    refine ⟨?_, fun index repository => fun isRepository => (isFetched isRepository).2⟩
    rw [← List.forall₂_eq_eq_eq, List.forall₂_map_right_iff, forall₂_iff_getElem?]
    refine ⟨asMany.symm.trans sameLength, fun index found repository isFound isRepository => ?_⟩
    exact Option.some.inj (isFound.symm.trans (isFetched isRepository).1)
  · rintro ⟨rfl, each⟩
    refine .fetched ?_
    rw [List.forall₂_map_right_iff, forall₂_iff_getElem?]
    refine ⟨sameLength, fun index fetching repository isFetching isRepository => ?_⟩
    rcases run.exists_fetching isRepository with ⟨other, isOther, rfl, follows⟩
    cases isFetching.symm.trans isOther
    exact follows.exists_ok_iff.mpr (each index _ isRepository)

/-- An error is reported once a step has failed with it. -/
theorem Run.reports_error_iff
    (run : Run launch current (.ofRepositories workDir install repositories files) trace crew)
    {error : FetchError} :
    crew.Reports workDir (.error error) ↔ ∃ event ∈ trace, event.result = .error error := by
  constructor
  · intro reports
    cases reports with
    | @failed fetching _ inCrew isResult =>
        rcases List.mem_iff_getElem?.mp inCrew with ⟨index, isFetching⟩
        rcases run.exists_repository isFetching with ⟨repository, isRepository⟩
        rcases run.exists_fetching isRepository with ⟨other, isOther, -, follows⟩
        cases isFetching.symm.trans isOther
        rcases follows.went.eq_some_iff.mp (Fetching.result?_eq_error_iff.mp isResult) with
          ⟨event, inOwn, failed⟩
        exact ⟨event, (List.mem_filter.mp inOwn).1, failed⟩
  · rintro ⟨event, inTrace, failed⟩
    rcases run.exists_advance inTrace with
      ⟨earlier, before, after, front, ⟨moving, -, isMoving, -, -, -, -⟩⟩
    rcases front.exists_repository isMoving with ⟨repository, isRepository⟩
    rcases run.exists_fetching isRepository with ⟨fetching, isFetching, -, follows⟩
    have inOwn : event ∈ ofFetch event.index trace :=
      List.mem_filter.mpr ⟨inTrace, decide_eq_true rfl⟩
    have isFailure := follows.went.eq_some_iff.mpr ⟨event, inOwn, failed⟩
    exact .failed (List.mem_of_getElem? isFetching) (Fetching.result?_eq_error_iff.mpr isFailure)

end Reports

namespace Crew

variable {workDir : Path} {crew : Crew}

theorem reports_ok_iff_map {fetched : List FetchedRepository} :
    crew.Reports workDir (.ok fetched) ↔
      crew.fetches.map (Fetching.result? workDir) =
        fetched.map fun repository => some (.ok repository) := by
  rw [← List.forall₂_eq_eq_eq, List.forall₂_map_left_iff, List.forall₂_map_right_iff]
  constructor
  · rintro ⟨each⟩
    exact each
  · exact .fetched

/-- If all repositories can be reported, nothing else can. -/
theorem Reports.eq_ok
    {fetched : List FetchedRepository}
    (reports : crew.Reports workDir (.ok fetched))
    {report : Except FetchError (List FetchedRepository)}
    (other : crew.Reports workDir report) :
    report = .ok fetched := by
  rcases reports with ⟨each⟩
  cases other with
  | @fetched found eachFound =>
      have same := (reports_ok_iff_map.mp (.fetched each)).symm.trans
        (reports_ok_iff_map.mp (.fetched eachFound))
      have injective : Function.Injective fun repository : FetchedRepository =>
          some (Except.ok repository : Except FetchError FetchedRepository) := by
        rintro first second ⟨⟩
        rfl
      rw [List.map_injective_iff.mpr injective same]
  | failed inCrew isResult =>
      rcases exists_mem_of_forall₂ each _ inCrew with ⟨_, -, isFetched⟩
      rw [isResult] at isFetched
      cases isFetched

/-- When all fetches have ended, there is something to report. -/
theorem Finished.exists_reports (finished : crew.Finished) (workDir : Path) :
    ∃ report, crew.Reports workDir report := by
  by_cases anyFailed : ∃ fetching ∈ crew.fetches, ∃ error,
      fetching.result? workDir = some (.error error)
  · rcases anyFailed with ⟨fetching, inCrew, error, isResult⟩
    exact ⟨.error error, .failed inCrew isResult⟩
  · refine ⟨.ok (crew.fetches.map (·.repository.fetched workDir)), .fetched ?_⟩
    rw [List.forall₂_map_right_iff, List.forall₂_same]
    intro fetching inCrew
    rcases (Fetching.ended_iff workDir).mp (finished fetching inCrew) with
      ⟨error | repository, isResult⟩
    · exact (anyFailed ⟨fetching, inCrew, error, isResult⟩).elim
    · rw [isResult, (Fetching.result?_eq_ok_iff.mp isResult).2.2]

end Crew

end Concordance
