import Concordance.Index.Page
import Concordance.Text.Search

/-!
# Putting the index into the documentation

A project asks for its index with a marker: a placeholder in the readme, or
a block tag on a symbol's comment.  An `Injector` looks for these sites,
makes the index of the whole tree, and splices it in at the sites that its
policy admits.

Everything that can fail happens before the first splice, so a failing
injection leaves the tree as it was.
-/

namespace Concordance.Index

/-- What to do with several markers. -/
inductive MarkerPolicy where
  /-- Use the first one. -/
  | firstOnly
  /-- Use all of them. -/
  | broadcast
  /-- Fail. -/
  | reject
  deriving DecidableEq, Repr

/-- A place that asks for the index. -/
inductive Site where
  | readme
  | comment (id : NodeId)
  deriving DecidableEq, Repr

/-- What an injection did. -/
structure Report where
  /-- How many entries the index has. -/
  entries : Nat
  /-- The sites that received the index. -/
  injected : List Site
  /-- The sites that were passed over. -/
  skipped : List Site
  deriving DecidableEq, Repr

/-- How an index is injected. -/
structure Injector where
  /-- The name of the block tag that marks a comment. -/
  markerTag : String
  /-- The text that marks a place in the readme. -/
  placeholder : String
  policy : MarkerPolicy
  renderer : Renderer
  deriving DecidableEq, Repr

/-- The marker of an injector that is given none. -/
def defaultMarker : String := "fullindex"

/-- The placeholder that belongs to a marker: the marker in braces. -/
def placeholderOf (marker : String) : String :=
  "\x7b" ++ marker ++ "\x7d"

namespace Injector

/-- The injector for a marker, its other settings at their defaults. -/
def ofMarker (marker : String) : Injector :=
  ⟨marker, placeholderOf marker, .firstOnly, ⟨.flat, defaultTitle⟩⟩

/-- Whether a symbol's comment has the marker tag. -/
def marks (injector : Injector) (symbol : Symbol) : Bool :=
  match symbol.comment with
  | some comment => (comment.findTag? injector.markerTag).isSome
  | none => false

/-- Whether the node at a position is marked. -/
def marksNode (injector : Injector) (tree : Tree) (id : NodeId) : Bool :=
  match tree.symbol? id with
  | some symbol => injector.marks symbol
  | none => false

/-- Whether the readme has the placeholder. -/
def marksReadme (injector : Injector) (tree : Tree) : Bool :=
  match tree.readme with
  | some readme => Text.contains readme injector.placeholder
  | none => false

/-- The sites of a tree: the readme, then the marked comments in walking order. -/
def sites (injector : Injector) (tree : Tree) : List Site :=
  (if injector.marksReadme tree then [.readme] else [])
    ++ (tree.walk.filter (injector.marksNode tree)).map .comment

/-- The fragment set off from the text around it. -/
def block (fragment : String) : String :=
  "\n\n" ++ fragment ++ "\n\n"

/--
The comment with the fragment behind its text; the text of the marker
follows, and all tags go.
-/
def spliceComment
    (injector : Injector)
    (fragment : String)
    (comment : Comment) : Comment :=
  let trailing :=
    match comment.findTag? injector.markerTag with
    | some tag => tag.text
    | none => ""
  { comment with
    text := comment.text ++ block fragment ++ trailing
    tags := [] }

/-- The tree with the fragment at a site. -/
def splice
    (injector : Injector)
    (fragment : String)
    (tree : Tree) : Site → Tree
  | .readme =>
      { tree with
        readme := tree.readme.map fun readme =>
          Text.replaceFirst readme injector.placeholder (block fragment) }
  | .comment id =>
      tree.modifySymbol id fun symbol =>
        { symbol with
          comment := symbol.comment.map (injector.spliceComment fragment) }

/-- Divide the sites into those that receive the index and those that are passed over. -/
def divide (policy : MarkerPolicy) (sites : List Site) : List Site × List Site :=
  match policy with
  | .firstOnly => (sites.take 1, sites.drop 1)
  | .broadcast | .reject => (sites, [])

/-- Everything that can fail: the sites, the entries and the fragment. -/
def prepare
    (injector : Injector)
    (tree : Tree) : Except IndexError (List Site × List Entry × String) := do
  let sites := injector.sites tree
  if injector.policy = .reject ∧ 1 < sites.length then
    throw (.multipleMarkers sites.length)
  let entries ← collect tree
  let fragment ← injector.renderer.page entries
  pure (sites, entries, fragment)

/-- Inject the index into a tree: the report or the error, and the tree afterwards. -/
def inject
    (injector : Injector)
    (tree : Tree) : Except IndexError Report × Tree :=
  match injector.prepare tree with
  | .error error => (.error error, tree)
  | .ok (sites, entries, fragment) =>
      let (injected, skipped) := divide injector.policy sites
      (.ok ⟨entries.length, injected, skipped⟩,
        injected.foldl (injector.splice fragment) tree)

end Injector

end Concordance.Index
