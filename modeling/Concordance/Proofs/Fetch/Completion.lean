import Concordance.Proofs.Fetch.Crew
import Concordance.Proofs.FileSystem.Writing

/-!
# Fetches brought to an end

A fetch that goes on while the others wait does what it would do by itself
(`Run.exists_ended`).  So every run can be brought to an end
(`Run.exists_finished`), and the program that performs the fetches one after
the other is one of the runs (`Run.exists_fetchAll`).
-/

namespace Concordance

/-- Perform steps one after the other. -/
def FetchStep.performAll
    (launch : Launcher)
    (current : Location)
    (repository : String)
    (steps : List FetchStep) : FileSystem.Step FetchError Unit :=
  steps.forM fun step => step.perform launch current repository

/-- A fetch begins with the removal of its old checkout; whatever follows runs a command. -/
theorem Repository.exists_commands
    (repository : Repository)
    (install : CommandSpec)
    (directory : Path) :
    ∃ commands, repository.fetchSteps install directory = .clean directory :: commands ∧
      ∀ step ∈ commands, ∃ label invocation, step = .run label invocation := by
  refine ⟨_, rfl, List.forall_mem_append.mpr ⟨?_, ?_⟩⟩
  · simp
  · split <;> simp

variable {launch : Launcher} {current : Location}

/-! ### Steps performed alone -/

namespace FetchStep

variable {name : String} {files between after : FileSystem} {error : FetchError}

theorem performAll_append (first second : List FetchStep) :
    performAll launch current name (first ++ second) =
      (performAll launch current name first >>= fun _ =>
        performAll launch current name second) :=
  List.forM_append

theorem outcome_performAll_append_of_ok
    {done : List FetchStep}
    (ran : outcome (performAll launch current name done) files = (.ok (), between))
    (rest : List FetchStep) :
    outcome (performAll launch current name (done ++ rest)) files =
      outcome (performAll launch current name rest) between := by
  rw [performAll_append]
  exact outcome_bind_of_ok ran _

theorem outcome_performAll_append_of_error
    {done : List FetchStep}
    (ran : outcome (performAll launch current name done) files = (.error error, after))
    (rest : List FetchStep) :
    outcome (performAll launch current name (done ++ rest)) files = (.error error, after) := by
  rw [performAll_append]
  exact outcome_bind_of_error ran _

theorem outcome_performAll_singleton (step : FetchStep) :
    outcome (performAll launch current name [step]) files =
      outcome (step.perform launch current name) files := by
  rcases performed : outcome (step.perform launch current name) files with ⟨error | _, after⟩
  · exact outcome_bind_of_error performed _
  · exact outcome_bind_of_ok performed _

end FetchStep

/-! ### Runs to the end -/

theorem Run.trans
    {start between crew : Crew}
    {earlier later : List FetchEvent}
    (first : Run launch current start earlier between)
    (second : Run launch current between later crew) :
    Run launch current start (earlier ++ later) crew := by
  induction second with
  | start =>
      rw [List.append_nil]
      exact first
  | step _ advance induction =>
      rw [← List.append_assoc]
      exact .step induction advance

theorem Run.head
    {start between crew : Crew}
    {event : FetchEvent}
    {later : List FetchEvent}
    (advance : Advance launch current start event between)
    (run : Run launch current between later crew) :
    Run launch current start (event :: later) crew :=
  (Run.step .start advance).trans run

open FetchStep (performAll)

theorem outcome_fetchOne
    {workDir : Path}
    {install : CommandSpec}
    {repository : Repository}
    {files after : FileSystem}
    {result : Except FetchError Unit}
    (ran : outcome
      (performAll launch current repository.name
        (repository.fetchSteps install (repository.checkoutDirectory workDir))) files =
      (result, after)) :
    outcome (fetchOne launch current workDir install repository) files =
      (result.map fun _ => repository.fetched workDir, after) := by
  cases result with
  | ok => exact outcome_bind_of_ok ran _
  | error error => exact outcome_bind_of_error ran _

/-- A fetch can go on alone until it has ended, as it would have done by itself. -/
theorem Run.exists_ended
    (workDir : Path)
    {steps : List FetchStep}
    {crew : Crew}
    {index : Nat}
    {fetching : Fetching}
    (isFetching : crew.fetches[index]? = some fetching)
    (unfailed : fetching.failure = none)
    (isPending : fetching.pending = steps)
    {result : Except FetchError Unit}
    {after : FileSystem}
    (ran : outcome (performAll launch current fetching.repository.name steps) crew.files =
      (result, after)) :
    ∃ trace ended,
      Run launch current crew trace ⟨after, crew.fetches.set index ended⟩ ∧
        ended.result? workDir = some (result.map fun _ => fetching.repository.fetched workDir) := by
  induction steps generalizing crew fetching with
  | nil =>
      cases ran
      refine ⟨[], fetching, ?_, ?_⟩
      · rw [← (List.getElem?_eq_some_iff.mp isFetching).2, List.set_getElem_self]
        exact .start
      · rw [Fetching.result?, unfailed, isPending]
        rfl
  | cons step rest induction =>
      cases performed :
        outcome (step.perform launch current fetching.repository.name) crew.files with
      | mk given between =>
          have advance : Advance launch current crew ⟨index, step, given⟩
              ⟨between, crew.fetches.set index (fetching.proceed rest given)⟩ :=
            .perform fetching rest isFetching unfailed isPending performed rfl
          rw [← FetchStep.outcome_performAll_singleton] at performed
          cases given with
          | error error =>
              cases (FetchStep.outcome_performAll_append_of_error performed rest).symm.trans ran
              exact ⟨_, _, .head advance .start, rfl⟩
          | ok =>
              replace ran :=
                (FetchStep.outcome_performAll_append_of_ok performed rest).symm.trans ran
              have inRange := (List.getElem?_eq_some_iff.mp isFetching).1
              let next : Crew := ⟨between, crew.fetches.set index (fetching.proceed rest (.ok ()))⟩
              have inNext : next.fetches[index]? = some (fetching.proceed rest (.ok ())) :=
                List.getElem?_set_self inRange
              rcases induction inNext unfailed rfl ran with
                ⟨trace, ended, run, isResult⟩
              rw [List.set_set] at run
              exact ⟨_, ended, run.head advance, isResult⟩

/-- One of the fetches can be brought to an end while the others wait. -/
theorem Run.exists_ended_at (crew : Crew) (index : Nat) :
    ∃ trace next, Run launch current crew trace next ∧
      (∀ fetching, next.fetches[index]? = some fetching → fetching.Ended) ∧
      ∀ other, other ≠ index → next.fetches[other]? = crew.fetches[other]? := by
  by_cases waits : ∀ fetching, crew.fetches[index]? = some fetching → fetching.Ended
  · exact ⟨[], crew, .start, waits, fun _ _ => rfl⟩
  · push Not at waits
    rcases waits with ⟨fetching, isFetching, goesOn⟩
    have unfailed : fetching.failure = none := (Classical.not_imp.mp goesOn).1
    rcases Run.exists_ended Path.empty isFetching unfailed rfl rfl with
      ⟨trace, ended, run, isResult⟩
    refine ⟨trace, _, run, ?_, fun other isOther => List.getElem?_set_ne isOther.symm⟩
    intro other isEnded
    rw [List.getElem?_set_self (List.getElem?_eq_some_iff.mp isFetching).1] at isEnded
    cases isEnded
    exact (Fetching.ended_iff Path.empty).mpr ⟨_, isResult⟩

/-- Whatever has happened, all fetches can be brought to an end. -/
theorem Run.exists_finished (crew : Crew) :
    ∃ trace finished, Run launch current crew trace finished ∧ finished.Finished := by
  have upTo (count : Nat) :
      ∃ trace next, Run launch current crew trace next ∧
        ∀ index < count, ∀ fetching, next.fetches[index]? = some fetching → fetching.Ended := by
    induction count with
    | zero => exact ⟨[], crew, .start, nofun⟩
    | succ count induction =>
        rcases induction with ⟨earlier, between, run, front⟩
        rcases exists_ended_at between count with ⟨later, next, more, here, elsewhere⟩
        refine ⟨_, next, run.trans more, fun index inFront => ?_⟩
        rcases Nat.lt_succ_iff_lt_or_eq.mp inFront with before | rfl
        · rw [elsewhere index (Nat.ne_of_lt before)]
          exact front index before
        · exact here
  rcases upTo crew.fetches.length with ⟨trace, finished, run, each⟩
  refine ⟨trace, finished, run, fun fetching inCrew => ?_⟩
  rcases List.mem_iff_getElem?.mp inCrew with ⟨index, isFetching⟩
  refine each index ?_ fetching isFetching
  rw [← run.length_fetches]
  exact (List.getElem?_eq_some_iff.mp isFetching).1

/-! ### One fetch after the other -/

theorem run_fetchEach_cons
    {workDir : Path}
    {install : CommandSpec}
    {repository : Repository}
    {repositories : List Repository}
    {files between after : FileSystem}
    {result : Except FetchError FetchedRepository}
    {results : List (Except FetchError FetchedRepository)}
    (first : outcome (fetchOne launch current workDir install repository) files =
      (result, between))
    (others : Id.run ((fetchEach launch current workDir install repositories).run between) =
      (results, after)) :
    Id.run ((fetchEach launch current workDir install (repository :: repositories)).run files) =
      (result :: results, after) := by
  change (let (first, between) :=
      outcome (fetchOne launch current workDir install repository) files
    let (others, after) :=
      Id.run ((fetchEach launch current workDir install repositories).run between)
    (first :: others, after)) = _
  rw [first]
  dsimp only
  rw [others]

/-- The fetches that are performed one after the other are a run to the end. -/
theorem Run.exists_fetchEach
    (workDir : Path)
    (install : CommandSpec)
    (repositories : List Repository)
    (front : List Fetching)
    {files after : FileSystem}
    {results : List (Except FetchError FetchedRepository)}
    (ran : Id.run ((fetchEach launch current workDir install repositories).run files) =
      (results, after)) :
    ∃ trace ended,
      Run launch current
          ⟨files, front ++ repositories.map (Fetching.ofRepository workDir install)⟩
          trace ⟨after, front ++ ended⟩ ∧
        List.Forall₂ (fun fetching result => fetching.result? workDir = some result)
          ended results := by
  induction repositories generalizing front files results with
  | nil =>
      cases ran
      exact ⟨[], [], .start, .nil⟩
  | cons repository repositories induction =>
      let steps := repository.fetchSteps install (repository.checkoutDirectory workDir)
      rcases performed : outcome (performAll launch current repository.name steps) files with
        ⟨given, between⟩
      rcases others :
        Id.run ((fetchEach launch current workDir install repositories).run between) with
        ⟨rest, last⟩
      cases (run_fetchEach_cons (outcome_fetchOne performed) others).symm.trans ran
      let begun := Fetching.ofRepository workDir install repository
      let crew : Crew := ⟨files, front ++ (repository :: repositories).map
        (Fetching.ofRepository workDir install)⟩
      have isBegun : crew.fetches[front.length]? = some begun := by
        simp [crew, begun]
      rcases Run.exists_ended workDir isBegun rfl rfl performed with
        ⟨earlier, ended, first, isResult⟩
      have moved : crew.fetches.set front.length ended =
          (front ++ [ended]) ++ repositories.map (Fetching.ofRepository workDir install) := by
        simp [crew]
      rw [moved] at first
      rcases induction (front ++ [ended]) others with ⟨later, behind, second, areResults⟩
      refine ⟨earlier ++ later, ended :: behind, ?_, ?_⟩
      · simp only [List.append_assoc] at first second
        exact first.trans second
      · exact .cons isResult areResults

/-- Fetching everything is a run to the end, and what it gives may be reported then. -/
theorem Run.exists_fetchAll
    {workDir : Path}
    {files prepared : FileSystem}
    (made : outcome (FileSystem.makeDirectories current workDir) files = (.ok (), prepared))
    (install : CommandSpec)
    (repositories : List Repository) :
    ∃ trace crew,
      Run launch current (.ofRepositories workDir install repositories prepared) trace crew ∧
        crew.Finished ∧
        crew.Reports workDir
          (outcome (fetchAll launch current workDir install repositories) files).1 ∧
        crew.files = (outcome (fetchAll launch current workDir install repositories) files).2 := by
  rcases ran : Id.run ((fetchEach launch current workDir install repositories).run prepared) with
    ⟨results, after⟩
  have all : outcome (fetchAll launch current workDir install repositories) files =
      (results.mapM id, after) := by
    refine (outcome_bind_of_ok (FileSystem.outcome_explain_eq_ok_iff.mpr made) _).trans ?_
    change (let (results, after) :=
      Id.run ((fetchEach launch current workDir install repositories).run prepared)
      (results.mapM id, after)) = _
    rw [ran]
  rcases Run.exists_fetchEach workDir install repositories [] ran with
    ⟨trace, ended, run, areResults⟩
  refine ⟨trace, ⟨after, ended⟩, run, ?_, ?_, ?_⟩
  · intro fetching inCrew
    rcases exists_mem_of_forall₂ areResults fetching inCrew with ⟨result, -, isResult⟩
    exact (Fetching.ended_iff workDir).mpr ⟨result, isResult⟩
  · rw [all]
    cases isReport : results.mapM id with
    | ok fetched =>
        have same : results = fetched.map .ok := by
          rw [← List.forall₂_eq_eq_eq, List.forall₂_map_right_iff]
          exact mapM_eq_ok_iff.mp isReport
        rw [same, List.forall₂_map_right_iff] at areResults
        exact .fetched areResults
    | error error =>
        rcases mapM_eq_error_iff.mp isReport with ⟨before, result, behind, rfl, -, isError⟩
        have inResults : result ∈ before ++ result :: behind :=
          List.mem_append_right _ List.mem_cons_self
        rcases exists_mem_of_forall₂ areResults.flip result inResults with
          ⟨fetching, inCrew, isResult⟩
        exact .failed inCrew (isResult.trans (congrArg some isError))
  · rw [all]

end Concordance
