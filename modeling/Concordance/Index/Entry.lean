import Concordance.Json.Mismatch
import Concordance.Kind
import Concordance.Text.Uppercase
import Concordance.Tree

/-!
# Index entries

The index lists every symbol of a listed kind with its kind and the name of
its parent, sorted by the upper-case form of the name; symbols whose forms
agree keep the order in which the project declares them.

Collecting goes through the outline, each symbol before its descendants, and
stops at the first symbol that cannot be classified: one whose code is no
kind's, one of a kind that must not occur, or a listed one without a parent.
-/

namespace Concordance.Index

/-- What can go wrong while the index is made. -/
inductive IndexError where
  | unknownKind (name : String) (code : UInt32)
  | unhandledKind (name : String) (kind : Kind)
  | missingRenderClass (name : String) (kind : Kind)
  | orphan (name : String) (kind : Kind)
  | multipleMarkers (count : Nat)
  | unreadableDump (problem : Json.Problem)
  deriving DecidableEq, Repr

/-- A code in hexadecimal. -/
def codeText (code : UInt32) : String :=
  "0x" ++ String.ofList (Text.hexDigits code.toNat)

/-- The wording of an error. -/
def IndexError.message : IndexError → String
  | .unknownKind name code =>
      "cannot recognize kind code " ++ codeText code ++ " on reflection '"
        ++ name ++ "'"
  | .unhandledKind name kind =>
      "no index disposition for reflection '" ++ name ++ "' of kind "
        ++ kind.name ++ " (" ++ codeText kind.code ++ ")"
  | .missingRenderClass name kind =>
      "cannot determine HTML class for reflection '" ++ name ++ "' of kind "
        ++ kind.name
  | .orphan name kind =>
      "reflection '" ++ name ++ "' of kind " ++ kind.name
        ++ " is index-worthy but has no parent"
  | .multipleMarkers count =>
      "found " ++ Nat.repr count ++ " index markers; only one is allowed"
  | .unreadableDump problem =>
      "invalid reflection JSON: " ++ problem.message

/-- A line of the index. -/
structure Entry where
  name : String
  kind : Kind
  parentName : String
  deriving DecidableEq, Repr

/-- The text by which an entry is sorted. -/
def Entry.sortKey (entry : Entry) : String :=
  Text.uppercase entry.name

/-- The entry of a symbol, if its kind is listed. -/
def symbolEntry?
    (parentName : Option String)
    (symbol : Symbol) : Except IndexError (Option Entry) :=
  match Kind.ofCode? symbol.kindCode with
  | none => .error (.unknownKind symbol.name symbol.kindCode)
  | some kind =>
      match kind.disposition, parentName with
      | .index, some parent => .ok (some ⟨symbol.name, kind, parent⟩)
      | .index, none => .error (.orphan symbol.name kind)
      | .skip, _ => .ok none
      | .unhandled, _ => .error (.unhandledKind symbol.name kind)

mutual

/-- The entries of an outline, in order of declaration. -/
def outlineEntries
    (parentName : Option String) :
    Outline → Except IndexError (List Entry)
  | .node symbol children => do
      let entry ← symbolEntry? parentName symbol
      let below ← outlinesEntries (some symbol.name) children
      pure (entry.toList ++ below)

/-- The entries of several outlines. -/
def outlinesEntries
    (parentName : Option String) :
    List Outline → Except IndexError (List Entry)
  | [] => .ok []
  | outline :: outlines => do
      let first ← outlineEntries parentName outline
      let rest ← outlinesEntries parentName outlines
      pure (first ++ rest)

end

/-- Sort entries by their keys, computing each key once. -/
def sortEntries (entries : List Entry) : List Entry :=
  let keyed := entries.map fun entry => (entry.sortKey, entry)
  (keyed.mergeSort fun left right => left.1 ≤ right.1).map Prod.snd

/-- The index of a tree. -/
def collect (tree : Tree) : Except IndexError (List Entry) := do
  let entries ← outlineEntries none tree.outline
  pure (sortEntries entries)

end Concordance.Index
