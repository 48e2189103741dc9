import Concordance.Dump
import Concordance.FileSystem.Basic
import Concordance.Index.Injection

/-!
# Indexing a dump on disk

A dump is read, the index is injected into its tree, and the tree is written
as a dump, possibly over the old one.  Nothing is written if any of the
earlier stages fails.
-/

namespace Concordance.Index

open FileSystem (Step)

/-- What can go wrong while a dump is indexed. -/
inductive DumpError where
  | inaccessible (path : Path) (cause : OsError)
  | unindexed (cause : IndexError)
  deriving DecidableEq, Repr

/-- The wording of the cause of an index error, if it has one. -/
def IndexError.cause? : IndexError → Option String
  | .unreadableDump problem => some problem.message
  | _ => none

namespace DumpError

/-- The wording of an error. -/
def message : DumpError → String
  | inaccessible path cause =>
      "failed to access reflection dump " ++ path.text ++ ": " ++ cause.message
  | unindexed cause => "index generation failed: " ++ cause.message

/-- The wordings of an error and of its causes. -/
def chain (error : DumpError) : List String :=
  error.message ::
    match error with
    | inaccessible _ cause => [cause.message]
    | unindexed cause => cause.message :: cause.cause?.toList

end DumpError

/-- The tree of a dump with the index in it, and what the injection did. -/
def indexText (injector : Injector) (text : String) :
    Except IndexError (Report × Tree) := do
  let tree ← (Dump.read text).mapError .unreadableDump
  match injector.inject tree with
  | (.ok report, indexed) => pure (report, indexed)
  | (.error error, _) => throw error

/-- Index the dump in one file and write the result into another one or the same. -/
def indexFile
    (injector : Injector)
    (current : Location)
    (input output : Path) : Step DumpError (Report × Tree) := do
  let text ← Step.look fun files =>
    (files.readText current input).mapError (.inaccessible input)
  let (report, indexed) ← ExceptT.mk (pure
    ((indexText injector text).mapError .unindexed))
  Step.change fun files =>
    (files.writeText current output (Dump.write indexed)).mapError
      (.inaccessible output)
  pure (report, indexed)

end Concordance.Index
