import Concordance.Proofs.Fetch.Completion
import Concordance.Proofs.Fetch.Confinement
import Concordance.Proofs.Path.Written
import Mathlib.Logic.Relation

/-!
# What a fetch removes

Whatever a repository and its version are called, its checkout is a child of the
working directory: one ordinary name is joined to the path of that directory
(`Repository.checkoutDirectory_eq_joinText`), and the parent of the result is
the working directory again (`Repository.exists_parent?_checkoutDirectory`).  A
fetch removes at most what lies there, before it runs any command
(`outcome_fetchOne_cleared`).
-/

namespace Concordance

open FileSystem (Enters)

/-! ### One ordinary name -/

namespace Repository

theorem not_mem_checkoutName
    {char : Char}
    (separates : isPathSeparator char = true)
    (repository : Repository) :
    char ∉ repository.checkoutName.toList := by
  rw [checkoutName, String.toList_ofList, List.mem_map]
  rintro ⟨given, -, rfl⟩
  split at separates
  · exact absurd separates (by decide)
  · rename_i plain
    exact plain separates

theorem checkoutName_ne {text : String} (without : '_' ∉ text.toList) (repository : Repository) :
    repository.checkoutName ≠ text := by
  rintro rfl
  exact without repository.underscore_mem_checkoutName

/-- A checkout is named behind the working directory like any file that a text names. -/
theorem checkoutDirectory_eq_joinText (repository : Repository) (workDir : Path) :
    repository.checkoutDirectory workDir = workDir.joinText repository.checkoutName := by
  rw [Path.joinText, Path.ofText_of_slashFree (checkoutName_ne (by decide) repository)
    (not_mem_checkoutName (by decide) repository)]
  rfl

/-- The parent of a checkout is the working directory. -/
theorem exists_parent?_checkoutDirectory (repository : Repository) (workDir : Path) :
    ∃ parent, (repository.checkoutDirectory workDir).parent? = some parent ∧
      parent.same workDir = true := by
  rw [checkoutDirectory_eq]
  rcases Path.exists_parent?_append_name repository.component?_checkoutName workDir.rooted
    (Path.openPieces workDir.pieces) with ⟨parent, isParent, sameComponents⟩
  refine ⟨parent, isParent, ?_⟩
  rw [Path.same, sameComponents, Path.components, piecesComponents_openPieces, Path.components,
    beq_iff_eq]

end Repository

/-! ### Removing a child -/

/-- What can be left of files when the child of some name in a directory is to be removed. -/
inductive Cleared
    (files : FileSystem)
    (current : Location)
    (base : Path)
    (name : String) : FileSystem → Prop
  | untouched : Cleared files current base name files
  | removed
      {directory : Location}
      (enters : files.Enters current base directory)
      (isDirectory : files.entry? (directory ++ [name]) = some .directory) :
      Cleared files current base name (files.prune (directory ++ [name]))

section

variable {files after : FileSystem} {current : Location} {base workDir : Path} {name : String}

theorem Cleared.entry?_eq
    (cleared : Cleared files current base name after)
    {location : Location}
    (outside : ¬ base.target current ++ [name] <+: location) :
    after.entry? location = files.entry? location := by
  cases cleared with
  | untouched => rfl
  | removed enters isDirectory =>
      cases enters.eq_target
      exact (FileSystem.lookup_prune (List.concat_ne_nil _ _)).trans (if_neg outside)

/-- A child of a directory is neither the directory nor above it, and it is not outside of it. -/
theorem not_prefix_child
    {directory location : Location}
    (apart : location <+: directory ∨ ¬ directory <+: location) :
    ¬ directory ++ [name] <+: location := by
  intro inChild
  rcases apart with above | outside
  · have long := (inChild.trans above).length_le
    rw [List.length_append, List.length_singleton] at long
    omega
  · exact outside ((List.prefix_append _ _).trans inChild)

theorem cleared_outcome_clean
    (launch : Launcher)
    (label : String)
    (repository : Repository) :
    Cleared files current workDir repository.checkoutName
      (outcome
        ((FetchStep.clean (repository.checkoutDirectory workDir)).perform launch current label)
        files).2 := by
  rw [FetchStep.outcome_perform_clean]
  rcases found : files.find? current (repository.checkoutDirectory workDir) with
    _ | ⟨location, _ | ⟨content, executable⟩⟩
  · exact .untouched
  · rw [Repository.checkoutDirectory_eq] at found
    rcases (FileSystem.find?_append_name_iff (repository.component?_checkoutName false)).mp found
      with ⟨-, enters, isChild, there⟩
    rw [Path.target_append_name (repository.component?_checkoutName false)] at isChild
    cases isChild
    exact .removed (FileSystem.enters_openPieces_iff.mp enters) there
  · exact .untouched

/-! ### Running commands -/

/-- Whether files come about from others by any commands that are run one after the other. -/
def Launched (launch : Launcher) : FileSystem → FileSystem → Prop :=
  Relation.ReflTransGen fun before after =>
    ∃ invocation, (outcome (launch invocation) before).2 = after

theorem launched_performAll
    (launch : Launcher)
    (current : Location)
    (label : String)
    {steps : List FetchStep}
    (commands : ∀ step ∈ steps, ∃ name invocation, step = .run name invocation)
    (files : FileSystem) :
    Launched launch files
      (outcome (FetchStep.performAll launch current label steps) files).2 := by
  induction steps generalizing files with
  | nil => exact .refl
  | cons step rest induction =>
      rcases List.forall_mem_cons.mp commands with ⟨⟨name, invocation, rfl⟩, others⟩
      have first : Launched launch files
          (outcome ((FetchStep.run name invocation).perform launch current label) files).2 := by
        rw [FetchStep.outcome_perform_run]
        exact .single ⟨invocation, rfl⟩
      rw [← List.singleton_append]
      rw [← FetchStep.outcome_performAll_singleton] at first
      rcases ran : outcome
        (FetchStep.performAll launch current label [.run name invocation]) files with
        ⟨_ | _, between⟩ <;> rw [ran] at first
      · rw [FetchStep.outcome_performAll_append_of_error ran]
        exact first
      · rw [FetchStep.outcome_performAll_append_of_ok ran]
        exact first.trans (induction others between)

/-- A fetch removes at most one child of the working directory; the rest is done by commands. -/
theorem outcome_fetchOne_cleared
    (launch : Launcher)
    (current : Location)
    (workDir : Path)
    (install : CommandSpec)
    (repository : Repository)
    (files : FileSystem) :
    ∃ cleared, Cleared files current workDir repository.checkoutName cleared ∧
      Launched launch cleared
        (outcome (fetchOne launch current workDir install repository) files).2 := by
  rcases repository.exists_commands install (repository.checkoutDirectory workDir) with
    ⟨commands, isList, areCommands⟩
  have first : Cleared files current workDir repository.checkoutName _ :=
    cleared_outcome_clean launch repository.name repository
  rw [← FetchStep.outcome_performAll_singleton] at first
  rcases all : outcome
    (FetchStep.performAll launch current repository.name
      (repository.fetchSteps install (repository.checkoutDirectory workDir))) files with
    ⟨result, after⟩
  rw [outcome_fetchOne all]
  rw [isList, ← List.singleton_append] at all
  rcases cleaned : outcome
    (FetchStep.performAll launch current repository.name
      [.clean (repository.checkoutDirectory workDir)]) files with
    ⟨_ | _, cleared⟩ <;> rw [cleaned] at first
  · rw [FetchStep.outcome_performAll_append_of_error cleaned] at all
    cases all
    exact ⟨_, first, .refl⟩
  · rw [FetchStep.outcome_performAll_append_of_ok cleaned] at all
    have commanded := launched_performAll launch current repository.name areCommands cleared
    rw [all] at commanded
    exact ⟨cleared, first, commanded⟩

/--
Whatever a repository and its version are called, its checkout is the working
directory joined with one ordinary name, and has the working directory as its
parent.  All that a fetch removes is that child; whatever else it does is done
by commands.  In particular it removes neither the working directory nor
anything above or outside of it.
-/
theorem checkout_inside_workDir
    (launch : Launcher)
    (current : Location)
    (workDir : Path)
    (install : CommandSpec)
    (repository : Repository)
    (files : FileSystem) :
    (repository.checkoutName ≠ "" ∧ repository.checkoutName ≠ "." ∧
      repository.checkoutName ≠ ".." ∧ '/' ∉ repository.checkoutName.toList ∧
      '\\' ∉ repository.checkoutName.toList ∧ ':' ∉ repository.checkoutName.toList) ∧
    repository.checkoutDirectory workDir = workDir.joinText repository.checkoutName ∧
    (repository.checkoutDirectory workDir).components =
      workDir.components ++ [.name repository.checkoutName] ∧
    (∃ parent, (repository.checkoutDirectory workDir).parent? = some parent ∧
      parent.same workDir = true) ∧
    ∃ cleared, Cleared files current workDir repository.checkoutName cleared ∧
      Launched launch cleared
        (outcome (fetchOne launch current workDir install repository) files).2 ∧
      ∀ location,
        location <+: workDir.target current ∨ ¬ workDir.target current <+: location →
          cleared.entry? location = files.entry? location := by
  refine ⟨⟨?_, ?_, ?_, ?_, ?_, ?_⟩, repository.checkoutDirectory_eq_joinText workDir,
    repository.components_checkoutDirectory workDir,
    repository.exists_parent?_checkoutDirectory workDir, ?_⟩
  · exact Repository.checkoutName_ne (by decide) repository
  · exact Repository.checkoutName_ne (by decide) repository
  · exact Repository.checkoutName_ne (by decide) repository
  · exact Repository.not_mem_checkoutName (by decide) repository
  · exact Repository.not_mem_checkoutName (by decide) repository
  · exact Repository.not_mem_checkoutName (by decide) repository
  · rcases outcome_fetchOne_cleared launch current workDir install repository files with
      ⟨cleared, isCleared, launched⟩
    exact ⟨cleared, isCleared, launched, fun location apart =>
      isCleared.entry?_eq (not_prefix_child apart)⟩

/-- A repository that is called like a path out of the working directory. -/
def trespasser : Repository :=
  { name := "../../etc", url := "u", pinned := some "C:\\.." }

/-- The files around a working directory with an old checkout. -/
def trespassed : FileSystem :=
  ⟨[(["etc"], .directory), (["srv"], .directory), (["srv", "work"], .directory),
    (["srv", "work", ".._.._etc_C__.."], .directory)]⟩

/-- Fetching it removes a child of the working directory at most. -/
theorem checkout_inside_workDir_trespasser :
    trespasser.checkoutDirectory (.ofText "work") =
        (Path.ofText "work").joinText ".._.._etc_C__.." ∧
      ∃ cleared, Cleared trespassed ["srv"] (.ofText "work") ".._.._etc_C__.." cleared ∧
        cleared.entry? ["etc"] = some .directory ∧
        cleared.entry? ["srv", "work"] = some .directory := by
  have isName : trespasser.checkoutName = ".._.._etc_C__.." := by decide +kernel
  rcases checkout_inside_workDir (fun _ => pure (.exited 0)) ["srv"] (.ofText "work")
    { command := "npm", args := [] } trespasser trespassed with
    ⟨-, isJoined, -, -, cleared, isCleared, -, kept⟩
  rw [isName] at isJoined isCleared
  refine ⟨isJoined, cleared, isCleared, ?_, ?_⟩
  · rw [kept ["etc"] (.inr (by decide +kernel))]
    decide +kernel
  · rw [kept ["srv", "work"] (.inl (by decide +kernel))]
    decide +kernel

end

end Concordance
