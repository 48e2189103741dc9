import Concordance.Proofs.Fetch.Confinement

/-!
# The steps of a fetch

A fetch removes an old checkout, clones the repository, checks its version out
there, and installs its dependencies if it asks for that
(`Repository.WholeFetch`).  To remove a checkout is to take away all that lies
there and nothing else; a command does whatever it is launched to do, and it has
gone well if its exit status is zero (`FetchStep.Effect`).
-/

namespace Concordance

open FileSystem (AgreeOn)

variable {launch : Launcher} {current : Location} {workDir directory : Path}
variable {install : CommandSpec} {repository : Repository} {files prepared : FileSystem}

/-! ### The commands -/

namespace Repository

/-- Run `git clone URL DIRECTORY`. -/
def cloning (repository : Repository) (directory : Path) : FetchStep :=
  .run "git clone" ⟨"git", ["clone", repository.url, directory.text], none⟩

/-- Run `git -C DIRECTORY checkout VERSION`. -/
def checkingOut (repository : Repository) (directory : Path) : FetchStep :=
  .run "git checkout" ⟨"git", ["-C", directory.text, "checkout", repository.reference], none⟩

end Repository

/-- Run the install command in the checkout. -/
def CommandSpec.installing (install : CommandSpec) (directory : Path) : FetchStep :=
  .run install.command ⟨install.command, install.args, some directory⟩

/-- All steps of a fetch, in their order; whether something is installed is up to the repository. -/
inductive Repository.WholeFetch
    (repository : Repository)
    (install : CommandSpec)
    (directory : Path) : List FetchStep → Prop
  | bare
      (declines : repository.install = false) :
      WholeFetch repository install directory
        [.clean directory, repository.cloning directory, repository.checkingOut directory]
  | installed
      (asks : repository.install = true) :
      WholeFetch repository install directory
        [.clean directory, repository.cloning directory, repository.checkingOut directory,
          install.installing directory]

theorem Repository.wholeFetch_fetchSteps
    (repository : Repository)
    (install : CommandSpec)
    (directory : Path) :
    repository.WholeFetch install directory (repository.fetchSteps install directory) := by
  cases asked : repository.install with
  | false =>
      rw [fetchSteps, asked]
      exact .bare asked
  | true =>
      rw [fetchSteps, asked]
      exact .installed asked

theorem Repository.wholeFetch_iff {steps : List FetchStep} :
    repository.WholeFetch install directory steps ↔
      steps = repository.fetchSteps install directory := by
  constructor
  · rintro (declines | asks)
    · rw [fetchSteps, declines]
      rfl
    · rw [fetchSteps, asks]
      rfl
  · rintro rfl
    exact repository.wholeFetch_fetchSteps install directory

/-! ### What a step comes to -/

/-- What may come of a step, and of the files before it. -/
inductive FetchStep.Effect
    (launch : Launcher)
    (current : Location)
    (repository : String)
    (before : FileSystem) : FetchStep → Except FetchError Unit → FileSystem → Prop
  /-- Where nothing lies, there is nothing to remove. -/
  | missing
      {directory : Path}
      (nothing : before.entry? (directory.target current) = none) :
      Effect launch current repository before (.clean directory) (.ok ()) before
  /-- Whatever lies in a directory is removed with it, and nothing else. -/
  | removed
      {directory : Path}
      {after : FileSystem}
      (there : (before.entry? (directory.target current)).isSome)
      (gone : ∀ location, directory.target current <+: location → after.entry? location = none)
      (kept : ∀ location, ¬ directory.target current <+: location →
        after.entry? location = before.entry? location) :
      Effect launch current repository before (.clean directory) (.ok ()) after
  | succeeded
      {label : String}
      {invocation : Invocation}
      {after : FileSystem}
      (launched : outcome (launch invocation) before = (.ok (.exited 0), after)) :
      Effect launch current repository before (.run label invocation) (.ok ()) after
  | failed
      {label : String}
      {invocation : Invocation}
      {status : ExitStatus}
      {after : FileSystem}
      (launched : outcome (launch invocation) before = (.ok status, after))
      (bad : status ≠ .exited 0) :
      Effect launch current repository before (.run label invocation)
        (.error (.failed repository label status)) after
  | notLaunched
      {label : String}
      {invocation : Invocation}
      {cause : OsError}
      {after : FileSystem}
      (launched : outcome (launch invocation) before = (.error cause, after)) :
      Effect launch current repository before (.run label invocation)
        (.error (.notLaunched repository label cause)) after

theorem FetchStep.effect_run
    (launch : Launcher)
    (current : Location)
    (name label : String)
    (invocation : Invocation)
    (files : FileSystem) :
    (FetchStep.run label invocation).Effect launch current name files
      (outcome ((FetchStep.run label invocation).perform launch current name) files).1
      (outcome ((FetchStep.run label invocation).perform launch current name) files).2 := by
  rw [outcome_perform_run]
  rcases launched : outcome (launch invocation) files with ⟨cause | status, after⟩
  · exact .notLaunched launched
  · dsimp only
    rw [judge]
    split
    · rename_i success
      rw [ExitStatus.isSuccess, beq_iff_eq] at success
      rw [success] at launched
      exact .succeeded launched
    · rename_i failure
      rw [ExitStatus.isSuccess, beq_iff_eq] at failure
      exact .failed launched failure

/-- Removing an old checkout takes away what lies there, whatever lies in the other ones. -/
theorem Repository.Removable.effect_clean
    {checkouts : List Location}
    (removable : repository.Removable current workDir checkouts prepared)
    (agree : AgreeOn (Sees checkouts (repository.checkoutAt current workDir)) files prepared)
    (launch : Launcher)
    (name : String) :
    let step : FetchStep := .clean (repository.checkoutDirectory workDir)
    step.Effect launch current name files
      (outcome (step.perform launch current name) files).1
      (outcome (step.perform launch current name) files).2 := by
  intro step
  rw [removable.outcome_clean agree]
  have below : repository.checkoutAt current workDir ≠ [] := checkoutAt_ne_nil
  cases there : files.entry? (repository.checkoutAt current workDir) with
  | none =>
      rw [FileSystem.without, there, Option.isSome_none, if_neg Bool.false_ne_true]
      exact .missing there
  | some entry =>
      rw [FileSystem.without, there, Option.isSome_some, if_pos rfl]
      refine .removed (Option.isSome_iff_exists.mpr ⟨entry, there⟩) ?_ ?_
      · exact fun location inside => (FileSystem.lookup_prune below).trans (if_pos inside)
      · exact fun location outside => (FileSystem.lookup_prune below).trans (if_neg outside)

end Concordance
