import Concordance.Checkout
import Concordance.Process

/-!
# Fetching repositories

Fetching a repository takes up to four steps: an old checkout is removed, the
repository is cloned, its version is checked out, and its dependencies are
installed if it asks for that.  Each step runs only after the one before has
succeeded.

Repositories are fetched independently of each other.  The manifest lists
them in the order of the configuration; if some fail, the error is that of
one of them.
-/

namespace Concordance

open FileSystem (Step)

/-- What can go wrong while repositories are fetched. -/
inductive FetchError where
  | unprepared (path : Path) (cause : OsError)
  | notLaunched (repository command : String) (cause : OsError)
  | failed (repository command : String) (status : ExitStatus)
  /-- The work on a repository ended without a result. -/
  | abandoned (repository : String)
  deriving DecidableEq, Repr

namespace FetchError

/-- The wording of an error. -/
def message : FetchError → String
  | unprepared path cause =>
      "failed to prepare " ++ path.text ++ ": " ++ cause.message
  | notLaunched repository command cause =>
      "failed to launch \x60" ++ command ++ "\x60 for repository '"
        ++ repository ++ "': " ++ cause.message
  | failed repository command status =>
      "\x60" ++ command ++ "\x60 for repository '" ++ repository
        ++ "' exited with " ++ status.message
  | abandoned repository =>
      "fetch worker for repository '" ++ repository
        ++ "' panicked or was cancelled"

/-- The wording of the cause of an error, if it has one. -/
def cause? : FetchError → Option String
  | unprepared _ cause | notLaunched _ _ cause => some cause.message
  | failed .. | abandoned _ => none

/-- The wordings of an error and of its cause. -/
def chain (error : FetchError) : List String :=
  error.message :: error.cause?.toList

end FetchError

/-- A repository that has been fetched into a directory. -/
structure FetchedRepository where
  name : String
  directory : Path
  repository : Repository
  deriving DecidableEq, Repr

/-- A step of fetching a repository. -/
inductive FetchStep where
  /-- Remove what an earlier fetch has left. -/
  | clean (directory : Path)
  /-- Run a program, which errors call by a label. -/
  | run (label : String) (invocation : Invocation)
  deriving DecidableEq, Repr

/-- The steps of fetching a repository into a directory. -/
def Repository.fetchSteps
    (repository : Repository)
    (install : CommandSpec)
    (directory : Path) : List FetchStep :=
  [.clean directory,
    .run "git clone"
      { program := "git"
        args := ["clone", repository.url, directory.text] },
    .run "git checkout"
      { program := "git"
        args := ["-C", directory.text, "checkout", repository.reference] }]
    ++
      if repository.install then
        [.run install.command
          { program := install.command
            args := install.args
            directory := some directory }]
      else []

/-- Perform a step of fetching a repository of some name. -/
def FetchStep.perform
    (launch : Launcher)
    (current : Location)
    (repository : String) : FetchStep → Step FetchError Unit
  | clean directory => Step.explain (.unprepared directory) do
      if (← get).exists? current directory then
        Step.change fun files => files.removeDirectory current directory
  | run label invocation => do
      let status ← Step.explain (.notLaunched repository label) (launch invocation)
      if status.isSuccess then pure ()
      else throw (.failed repository label status)

/-- Fetch a repository. -/
def fetchOne
    (launch : Launcher)
    (current : Location)
    (workDir : Path)
    (install : CommandSpec)
    (repository : Repository) : Step FetchError FetchedRepository := do
  let directory := repository.checkoutDirectory workDir
  (repository.fetchSteps install directory).forM fun step =>
    step.perform launch current repository.name
  pure ⟨repository.name, directory, repository⟩

/-- Fetch every repository, also after one has failed. -/
def fetchEach
    (launch : Launcher)
    (current : Location)
    (workDir : Path)
    (install : CommandSpec) :
    List Repository →
      StateM FileSystem (List (Except FetchError FetchedRepository))
  | [] => pure []
  | repository :: repositories => do
      let first ← (fetchOne launch current workDir install repository).run
      let others ← fetchEach launch current workDir install repositories
      pure (first :: others)

/-- Fetch all repositories into a working directory, which is made if it is missing. -/
def fetchAll
    (launch : Launcher)
    (current : Location)
    (workDir : Path)
    (install : CommandSpec)
    (repositories : List Repository) : Step FetchError (List FetchedRepository) := do
  Step.explain (.unprepared workDir) (FileSystem.makeDirectories current workDir)
  let results ← fetchEach launch current workDir install repositories
  ExceptT.mk (pure (results.mapM id))

end Concordance
