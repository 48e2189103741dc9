import Concordance.Index.DumpFile
import Concordance.Proofs.FileSystem.Writing

/-!
# Indexing a dump on disk

A dump is indexed in one go: if its text is read as a tree, the index is
injected and the result can be written, the result stands in the output
(`indexFile_eq_ok`).  Otherwise nothing has changed, and the error tells
which of these failed (`indexFile_eq_error`).
-/

namespace Concordance.Index

open FileSystem (Step)

variable {injector : Injector} {current : Location} {input output : Path}
variable {files after : FileSystem}

/-- Why the dump in a file is not indexed, the stages in order. -/
inductive Unindexable
    (injector : Injector)
    (current : Location)
    (input output : Path)
    (files : FileSystem) : DumpError → Prop
  | unread
      {cause : OsError}
      (fails : files.readText current input = .error cause) :
      Unindexable injector current input output files (.inaccessible input cause)
  | unparsed
      {text : String}
      {problem : Json.Problem}
      (isText : files.readText current input = .ok text)
      (fails : Dump.read text = .error problem) :
      Unindexable injector current input output files (.unindexed (.unreadableDump problem))
  | uninjected
      {text : String}
      {tree left : Tree}
      {error : IndexError}
      (isText : files.readText current input = .ok text)
      (isTree : Dump.read text = .ok tree)
      (fails : injector.inject tree = (.error error, left)) :
      Unindexable injector current input output files (.unindexed error)
  | unwritten
      {text : String}
      {tree indexed : Tree}
      {report : Report}
      {cause : OsError}
      (isText : files.readText current input = .ok text)
      (isTree : Dump.read text = .ok tree)
      (injects : injector.inject tree = (.ok report, indexed))
      (fails : files.writeText current output (Dump.write indexed) = .error cause) :
      Unindexable injector current input output files (.inaccessible output cause)

theorem indexText_eq_ok_iff
    {text : String}
    {report : Report}
    {indexed : Tree} :
    indexText injector text = .ok (report, indexed) ↔
      ∃ tree, Dump.read text = .ok tree ∧ injector.inject tree = (.ok report, indexed) := by
  rw [indexText, bind_eq_ok_iff]
  simp only [mapError_eq_ok_iff]
  refine exists_congr fun tree => and_congr_right fun _ => ?_
  split
  · rename_i injects
    rw [injects]
    simp [pure, Except.pure]
  · rename_i fails
    rw [fails]
    simp [throw, throwThe, MonadExceptOf.throw]

theorem indexText_eq_error
    {text : String}
    {error : IndexError}
    (fails : indexText injector text = .error error) :
    (∃ problem, Dump.read text = .error problem ∧ error = .unreadableDump problem) ∨
      ∃ tree left, Dump.read text = .ok tree ∧ injector.inject tree = (.error error, left) := by
  rw [indexText, bind_eq_error_iff] at fails
  rcases fails with unparsed | ⟨tree, isTree, uninjected⟩
  · rcases mapError_eq_error_iff.mp unparsed with ⟨problem, fails, rfl⟩
    exact .inl ⟨problem, fails, rfl⟩
  · split at uninjected
    · cases uninjected
    · rename_i injects
      cases uninjected
      exact .inr ⟨tree, _, mapError_eq_ok_iff.mp isTree, injects⟩

/-- A step that gives a result and looks at nothing. -/
theorem outcome_mk_pure {Error Result : Type} (result : Except Error Result) :
    outcome (ExceptT.mk (pure result) : Step Error Result) files = (result, files) :=
  rfl

theorem indexFile_eq_ok
    {report : Report}
    {indexed : Tree}
    (done : outcome (indexFile injector current input output) files =
      (.ok (report, indexed), after)) :
    ∃ text tree, files.readText current input = .ok text ∧
      Dump.read text = .ok tree ∧
      injector.inject tree = (.ok report, indexed) ∧
      files.writeText current output (Dump.write indexed) = .ok after := by
  rw [indexFile] at done
  rcases outcome_bind_cases done with ⟨_, -, ⟨⟩⟩ | ⟨text, _, looked, done⟩
  rcases outcome_bind_cases done with ⟨_, -, ⟨⟩⟩ | ⟨⟨_, _⟩, _, injected, done⟩
  rcases outcome_bind_cases done with ⟨_, -, ⟨⟩⟩ | ⟨⟨⟩, _, wrote, ⟨⟩⟩
  rw [FileSystem.outcome_look, Prod.mk.injEq, mapError_eq_ok_iff] at looked
  rw [outcome_mk_pure, Prod.mk.injEq, mapError_eq_ok_iff, indexText_eq_ok_iff] at injected
  rcases looked with ⟨isText, rfl⟩
  rcases injected with ⟨⟨tree, isTree, injects⟩, rfl⟩
  rw [FileSystem.outcome_change_eq_ok_iff, mapError_eq_ok_iff] at wrote
  exact ⟨text, tree, isText, isTree, injects, wrote⟩

theorem indexFile_eq_error
    {cause : DumpError}
    (failed : outcome (indexFile injector current input output) files = (.error cause, after)) :
    after = files ∧ Unindexable injector current input output files cause := by
  rw [indexFile] at failed
  rcases outcome_bind_cases failed with ⟨_, looked, ⟨⟩⟩ | ⟨text, _, looked, failed⟩
  · rw [FileSystem.outcome_look, Prod.mk.injEq, mapError_eq_error_iff] at looked
    rcases looked with ⟨⟨os, fails, rfl⟩, rfl⟩
    exact ⟨rfl, .unread fails⟩
  rw [FileSystem.outcome_look, Prod.mk.injEq, mapError_eq_ok_iff] at looked
  rcases looked with ⟨isText, rfl⟩
  rcases outcome_bind_cases failed with ⟨_, injected, ⟨⟩⟩ | ⟨⟨report, indexed⟩, _, injected, failed⟩
  · rw [outcome_mk_pure, Prod.mk.injEq, mapError_eq_error_iff] at injected
    rcases injected with ⟨⟨error, fails, rfl⟩, rfl⟩
    rcases indexText_eq_error fails with ⟨problem, unparsed, rfl⟩ | ⟨tree, left, isTree, fails⟩
    · exact ⟨rfl, .unparsed isText unparsed⟩
    · exact ⟨rfl, .uninjected isText isTree fails⟩
  rw [outcome_mk_pure, Prod.mk.injEq, mapError_eq_ok_iff, indexText_eq_ok_iff] at injected
  rcases injected with ⟨⟨tree, isTree, injects⟩, rfl⟩
  rcases outcome_bind_cases failed with ⟨_, wrote, ⟨⟩⟩ | ⟨⟨⟩, _, wrote, ⟨⟩⟩
  rw [FileSystem.outcome_change_eq_error_iff, mapError_eq_error_iff] at wrote
  rcases wrote with ⟨⟨os, fails, rfl⟩, rfl⟩
  exact ⟨rfl, .unwritten isText isTree injects fails⟩

end Concordance.Index
