import Concordance.Fetch
import Concordance.Proofs.Fetch.Checkouts
import Concordance.Proofs.FileSystem.Agreement

/-!
# Steps that keep to their own checkout

A command is confined to a checkout if it looks at no other checkout and changes
nothing outside its own (`Confined`); then so is the step that runs it
(`confined_perform_run`).  Removing an old checkout looks at the way to the
working directory, too.  If the old checkout can be removed whatever lies in the
other ones (`Repository.Removable`), what the step does is told by its own
checkout all the same (`Repository.Removable.outcome_clean`).
-/

namespace Concordance

open FileSystem (AgreeOn)

/-- What a fetch may look at: its own checkout, and everything outside all checkouts. -/
def Sees (checkouts : List Location) (own location : Location) : Prop :=
  own <+: location ∨ ∀ checkout ∈ checkouts, ¬ checkout <+: location

/-- Whether a step looks at no checkout but its own, and changes nothing outside of that. -/
structure Confined
    {Error Result : Type}
    (checkouts : List Location)
    (own : Location)
    (step : FileSystem.Step Error Result) : Prop where
  reads : ∀ first second, AgreeOn (Sees checkouts own) first second →
    (outcome step first).1 = (outcome step second).1 ∧
      AgreeOn (Sees checkouts own) (outcome step first).2 (outcome step second).2
  writes : ∀ files location, ¬ own <+: location →
    FileSystem.entry? (outcome step files).2 location = files.entry? location

namespace Repository

/-- Where the checkout of a repository lies, or would lie. -/
def checkoutAt (repository : Repository) (current : Location) (workDir : Path) : Location :=
  (repository.checkoutDirectory workDir).target current

variable {repository : Repository} {current : Location} {workDir : Path}

theorem checkoutAt_eq :
    repository.checkoutAt current workDir =
      workDir.target current ++ [repository.checkoutName] := by
  rw [checkoutAt, checkoutDirectory_eq,
    Path.target_append_name (repository.component?_checkoutName false), Path.target_openPieces]

theorem checkoutAt_ne_nil : repository.checkoutAt current workDir ≠ [] := by
  rw [checkoutAt_eq]
  exact List.concat_ne_nil _ _

/-- Nothing lies in both of two different checkouts. -/
theorem not_prefix_of_different
    {first second : Repository}
    (different :
      (first.checkoutDirectory workDir).same (second.checkoutDirectory workDir) = false)
    {location : Location}
    (inFirst : first.checkoutAt current workDir <+: location) :
    ¬ second.checkoutAt current workDir <+: location := by
  intro inSecond
  rw [checkoutAt_eq] at inFirst inSecond
  have same := (List.prefix_of_prefix_length_le inFirst inSecond (by simp)).eq_of_length (by simp)
  have sameName : first.checkoutName = second.checkoutName := by
    simpa using same
  rw [same_checkoutDirectory_iff_checkoutName.mpr sameName] at different
  cases different

theorem find?_checkoutDirectory_eq_some
    {files : FileSystem}
    {location : Location}
    {entry : Entry}
    (found : files.find? current (repository.checkoutDirectory workDir) =
      some (location, entry)) :
    location = repository.checkoutAt current workDir ∧ files.entry? location = some entry := by
  rw [checkoutAt]
  rw [checkoutDirectory_eq] at found ⊢
  exact ((FileSystem.find?_append_name_iff
    (repository.component?_checkoutName false)).mp found).2.2

/--
Whether an old checkout can be removed: it is a directory that is found under
its path, whatever lies in the other checkouts.  It need not be found if the way
to the working directory leads through another checkout, such as `guide_main/..`,
which comes and goes.
-/
def Removable
    (repository : Repository)
    (current : Location)
    (workDir : Path)
    (checkouts : List Location)
    (prepared : FileSystem) : Prop :=
  ∀ files, AgreeOn (Sees checkouts (repository.checkoutAt current workDir)) files prepared →
    ∀ entry, files.entry? (repository.checkoutAt current workDir) = some entry →
      files.find? current (repository.checkoutDirectory workDir) =
        some (repository.checkoutAt current workDir, .directory)

/-- If the way to the working directory leads through no checkout, it leads to what it led to. -/
theorem removable_of_clear
    {checkouts : List Location}
    (clear : ∀ location ∈ workDir.way current,
      ∀ checkout ∈ checkouts, ¬ checkout <+: location)
    {prepared : FileSystem}
    (found : ∀ entry, prepared.entry? (repository.checkoutAt current workDir) = some entry →
      prepared.find? current (repository.checkoutDirectory workDir) =
        some (repository.checkoutAt current workDir, .directory)) :
    repository.Removable current workDir checkouts prepared := by
  intro files agree entry there
  have own : Sees checkouts (repository.checkoutAt current workDir)
      (repository.checkoutAt current workDir) :=
    .inl (List.prefix_refl _)
  rw [agree _ own] at there
  rw [← found entry there]
  rw [checkoutAt, checkoutDirectory_eq] at own agree
  rw [checkoutDirectory_eq]
  refine agree.find?_append_name (repository.component?_checkoutName false) ?_ own
  rw [Path.way_openPieces]
  exact fun location onWay => .inr (clear location onWay)

end Repository

/-! ### Performing a step -/

namespace FetchStep

variable {launch : Launcher} {current : Location} {name : String} {files : FileSystem}

/-- What running a command comes to. -/
def judge (repository label : String) : Except OsError ExitStatus → Except FetchError Unit
  | .error cause => .error (.notLaunched repository label cause)
  | .ok status =>
      if status.isSuccess then .ok () else .error (.failed repository label status)

theorem outcome_perform_run (label : String) (invocation : Invocation) :
    outcome ((FetchStep.run label invocation).perform launch current name) files =
      (judge name label (outcome (launch invocation) files).1,
        (outcome (launch invocation) files).2) := by
  have explained :=
    FileSystem.outcome_explain (FetchError.notLaunched name label) (launch invocation) files
  rcases launched : outcome (launch invocation) files with ⟨cause | status, after⟩
  · rw [launched] at explained
    exact outcome_bind_of_error explained _
  · rw [launched] at explained
    refine (outcome_bind_of_ok explained _).trans ?_
    rw [judge]
    split <;> rfl

/-- What removing an old checkout comes to. -/
theorem outcome_perform_clean (directory : Path) :
    outcome ((FetchStep.clean directory).perform launch current name) files =
      match files.find? current directory with
      | none => (.ok (), files)
      | some (location, .directory) => (.ok (), files.prune location)
      | some (_, .file ..) => (.error (.unprepared directory .notADirectory), files) := by
  rw [perform, FileSystem.outcome_explain, outcome_get_bind, FileSystem.exists?]
  rcases found : files.find? current directory with _ | ⟨location, _ | ⟨content, executable⟩⟩
  · rfl
  · have removed : files.removeDirectory current directory = .ok (files.prune location) := by
      rw [FileSystem.removeDirectory, FileSystem.resolve_of_find? found]
      rfl
    rw [Option.isSome_some, if_pos rfl, FileSystem.outcome_change_eq_ok_iff.mpr removed]
    rfl
  · have refused : files.removeDirectory current directory = .error .notADirectory := by
      rw [FileSystem.removeDirectory, FileSystem.resolve_of_find? found]
      rfl
    rw [Option.isSome_some, if_pos rfl,
      FileSystem.outcome_change_eq_error_iff.mpr ⟨refused, rfl⟩]
    rfl

end FetchStep

/-! ### Confined steps -/

section

variable {launch : Launcher} {current : Location} {workDir : Path} {repository : Repository}
variable {checkouts : List Location} {files prepared : FileSystem}

theorem confined_perform_run
    {invocation : Invocation}
    {own : Location}
    (confined : Confined checkouts own (launch invocation))
    (name label : String) :
    Confined checkouts own ((FetchStep.run label invocation).perform launch current name) where
  reads first second agree := by
    rw [FetchStep.outcome_perform_run, FetchStep.outcome_perform_run]
    rcases confined.reads first second agree with ⟨sameResult, agreeAfter⟩
    exact ⟨congrArg (FetchStep.judge name label) sameResult, agreeAfter⟩
  writes files location outside := by
    rw [FetchStep.outcome_perform_run]
    exact confined.writes files location outside

/-- Removing an old checkout changes nothing outside of it. -/
theorem entry?_outcome_perform_clean
    {location : Location}
    (outside : ¬ repository.checkoutAt current workDir <+: location)
    (name : String) :
    FileSystem.entry?
        (outcome
          ((FetchStep.clean (repository.checkoutDirectory workDir)).perform launch current name)
          files).2
        location =
      files.entry? location := by
  rw [FetchStep.outcome_perform_clean]
  rcases found : files.find? current (repository.checkoutDirectory workDir) with
    _ | ⟨place, _ | ⟨content, executable⟩⟩
  · rfl
  · rcases Repository.find?_checkoutDirectory_eq_some found with ⟨rfl, -⟩
    exact (FileSystem.lookup_prune Repository.checkoutAt_ne_nil).trans (if_neg outside)
  · rfl

/-- Removing an old checkout goes well, and removes whatever lies there. -/
theorem Repository.Removable.outcome_clean
    (removable : repository.Removable current workDir checkouts prepared)
    (agree : AgreeOn (Sees checkouts (repository.checkoutAt current workDir)) files prepared)
    (name : String) :
    outcome
        ((FetchStep.clean (repository.checkoutDirectory workDir)).perform launch current name)
        files =
      (.ok (), files.without (repository.checkoutAt current workDir)) := by
  rw [FetchStep.outcome_perform_clean, FileSystem.without]
  cases there : files.entry? (repository.checkoutAt current workDir) with
  | some entry => rw [removable files agree entry there, Option.isSome_some, if_pos rfl]
  | none =>
      have nothing : files.find? current (repository.checkoutDirectory workDir) = none := by
        rw [Option.eq_none_iff_forall_ne_some]
        rintro ⟨location, entry⟩ found
        rcases Repository.find?_checkoutDirectory_eq_some found with ⟨rfl, isThere⟩
        rw [there] at isThere
        cases isThere
      rw [nothing, Option.isSome_none, if_neg Bool.false_ne_true]

end

end Concordance
