import Concordance.Proofs.Dump.Rewording
import Concordance.Proofs.FileSystem.Places
import Concordance.Proofs.Index.DumpFile
import Concordance.Proofs.Index.Splicing

/-!
# Indexing a dump that has been indexed

An injection rewords comments and the readme and nothing else
(`rewords_inject`), so the dump that is written can be read, and what is read is
the tree that was written, its nodes numbered as they were.  Indexing the
output therefore goes on with that tree as if it had been kept at hand
(`indexFile_all_or_nothing`).
-/

namespace Concordance.Index

open FileSystem (Step)
open Json

/-! ### An injection rewords -/

namespace Injector

variable {injector : Injector} {fragment : String}

theorem rewords_spliceNode (node : Node) :
    (injector.spliceNode fragment node).symbol.Rewords node.symbol where
  name := rfl
  kindCode := rfl
  comment := by
    rw [spliceNode]
    cases node.symbol.comment with
    | none => exact .none
    | some comment => exact .some ⟨.inr rfl, rfl⟩
  extra := rfl

theorem rewords_spliceAll
    {sites : List Site}
    (distinct : sites.Nodup)
    (tree : Tree) :
    (sites.foldl (injector.splice fragment) tree).Rewords tree where
  links := (sameNames_spliceAll sites tree).links
  symbols := by
    intro id
    rw [Tree.symbol?, Tree.symbol?, node?_spliceAll distinct]
    cases tree.node? id with
    | none => exact .none
    | some node =>
        refine .some ?_
        split
        · exact rewords_spliceNode node
        · exact .refl node.symbol
  readme := by
    rw [readme_spliceAll distinct]
    split
    · exact Option.isSome_map
    · rfl

theorem rewords_inject
    {tree indexed : Tree}
    (linked : tree.Linked)
    {report : Report}
    (injects : injector.inject tree = (.ok report, indexed)) :
    indexed.Rewords tree := by
  rcases inject_eq_ok_iff.mp injects with ⟨entries, fragment, -, -, -, rfl, rfl⟩
  exact rewords_spliceAll (nodup_injected linked injector) tree

end Injector

/-! ### Going on with a tree -/

/-- Index a tree that is at hand and write the result into a file. -/
def saveIndexed
    (injector : Injector)
    (current : Location)
    (output : Path)
    (tree : Tree) : Step DumpError (Report × Tree) :=
  match injector.inject tree with
  | (.ok report, indexed) => do
      Step.change fun files =>
        (files.writeText current output (Dump.write indexed)).mapError
          (.inaccessible output)
      pure (report, indexed)
  | (.error cause, _) => throw (.unindexed cause)

/-- To index a file is to index the tree of its dump. -/
theorem outcome_indexFile_of_read
    {current : Location}
    {input : Path}
    {files : FileSystem}
    {text : String}
    {tree : Tree}
    (isText : files.readText current input = .ok text)
    (isTree : Dump.read text = .ok tree)
    (injector : Injector)
    (output : Path) :
    outcome (indexFile injector current input output) files =
      outcome (saveIndexed injector current output tree) files := by
  have isIndexed : indexText injector text =
      match injector.inject tree with
      | (.ok report, indexed) => .ok (report, indexed)
      | (.error error, _) => .error error := by
    rw [indexText, isTree]
    rfl
  rw [indexFile, outcome_bind, FileSystem.outcome_look, isText]
  dsimp only [Except.mapError]
  rw [outcome_bind, outcome_mk_pure, isIndexed, saveIndexed]
  rcases injector.inject tree with ⟨_ | report, indexed⟩
  · rfl
  · rfl

/-! ### All or nothing -/

/-- What has happened when the dump in a file has been indexed into another file or the same. -/
structure Indexed
    (injector : Injector)
    (current : Location)
    (input output : Path)
    (files : FileSystem)
    (report : Report)
    (indexed : Tree)
    (after : FileSystem) : Prop where
  /-- The dump stands where the output led before, and nothing else has changed. -/
  written :
    ∃ place executable,
      files.resolve current output = .ok place ∧
      files.entry? place.location ≠ some .directory ∧
      after.find? current output =
        some (place.location, .file (.text (Dump.write indexed)) executable) ∧
      ∀ other, other ≠ place.location → after.entry? other = files.entry? other
  /--
  The tree is that of the input with the index in it.  If its numbers are
  whole, the output is read as this tree, and indexing it goes on from there.
  -/
  again :
    ∃ text tree value,
      files.readText current input = .ok text ∧
      Dump.read text = .ok tree ∧
      Value.read text = .ok value ∧
      injector.inject tree = (.ok report, indexed) ∧
      (value.Integral →
        Dump.read (Dump.write indexed) = .ok indexed ∧
        ∀ next target,
          outcome (indexFile next current output target) after =
            outcome (saveIndexed next current target indexed) after)

theorem indexed_of_indexFile
    {injector : Injector}
    {current : Location}
    {input output : Path}
    {files after : FileSystem}
    {report : Report}
    {indexed : Tree}
    (done : outcome (indexFile injector current input output) files =
      (.ok (report, indexed), after)) :
    Indexed injector current input output files report indexed after := by
  rcases indexFile_eq_ok done with ⟨text, tree, isText, isTree, injects, wrote⟩
  rcases FileSystem.writeText_eq_ok wrote with
    ⟨place, executable, resolved, free, resolvedAfter, entries⟩
  constructor
  · refine ⟨place, executable, resolved, free, FileSystem.find?_of_resolve resolvedAfter, ?_⟩
    intro other elsewhere
    rw [entries, if_neg elsewhere]
  · rcases Dump.exists_readFrom_of_read isTree with ⟨value, -, plain, -⟩
    refine ⟨text, tree, value, isText, isTree, plain, injects, ?_⟩
    intro integral
    have rewords := Injector.rewords_inject (Dump.built_of_read isTree).linked injects
    have back := Dump.read_write_of_rewords isTree plain integral rewords
    refine ⟨back, fun next target => outcome_indexFile_of_read ?_ back next target⟩
    exact FileSystem.readText_eq_ok_iff.mpr ⟨_, _, resolvedAfter⟩

/--
To index a dump on disk is all or nothing.  It fails with the files as they
were, or it changes the output alone, and then the output can be indexed again:
it is read as the very tree that the injection left.
-/
theorem indexFile_all_or_nothing
    (injector : Injector)
    (current : Location)
    (input output : Path)
    (files : FileSystem) :
    (∃ cause,
      outcome (indexFile injector current input output) files = (.error cause, files) ∧
      Unindexable injector current input output files cause) ∨
    ∃ report indexed after,
      outcome (indexFile injector current input output) files =
        (.ok (report, indexed), after) ∧
      Indexed injector current input output files report indexed after := by
  rcases done : outcome (indexFile injector current input output) files with
    ⟨cause | ⟨report, indexed⟩, after⟩
  · rcases indexFile_eq_error done with ⟨rfl, unindexable⟩
    exact .inl ⟨cause, rfl, unindexable⟩
  · exact .inr ⟨report, indexed, after, rfl, indexed_of_indexFile done⟩

end Concordance.Index
