import Concordance.Reflection

/-!
# The arena of symbols

A `Tree` keeps its symbols in one array; a symbol's position is its identity
for as long as the tree lives.  Every node knows its parent and its children
by position, node zero is the root, and a child always stands behind its
parent.  Next to the symbols the tree keeps the project's readme.

`Tree.walk` visits the nodes with an explicit stack, each before its
descendants.  `Tree.outlineAt` reads the outline below a node off the links.
-/

namespace Concordance

/-- The position of a node in its tree. -/
abbrev NodeId := Nat

/-- A symbol with its links. -/
structure Node where
  symbol : Symbol
  parent : Option NodeId
  children : List NodeId
  deriving DecidableEq, Repr

/-- A project: its symbols and its readme. -/
structure Tree where
  nodes : Array Node
  readme : Option String
  deriving DecidableEq, Repr

namespace Tree

/-- The tree that has one symbol and no readme. -/
def withRoot (symbol : Symbol) : Tree :=
  ⟨#[⟨symbol, none, []⟩], none⟩

/-- The position of the root. -/
def root : NodeId := 0

/-- How many nodes the tree has. -/
def size (tree : Tree) : Nat :=
  tree.nodes.size

/-- The node at a position. -/
def node? (tree : Tree) (id : NodeId) : Option Node :=
  tree.nodes[id]?

/-- The positions of a node's children, in order of declaration. -/
def childrenOf (tree : Tree) (id : NodeId) : List NodeId :=
  match tree.node? id with
  | some node => node.children
  | none => []

/-- The symbol at a position. -/
def symbol? (tree : Tree) (id : NodeId) : Option Symbol :=
  (tree.node? id).map Node.symbol

/-- The name of a node's parent. -/
def parentName? (tree : Tree) (id : NodeId) : Option String := do
  let node ← tree.node? id
  let parent ← node.parent
  let symbol ← tree.symbol? parent
  pure symbol.name

/-- Make a node the last child of another one. -/
def link (parent child : NodeId) (nodes : Array Node) : Array Node :=
  nodes.modify parent fun node =>
    { node with children := node.children ++ [child] }

/-- Add a symbol as the last child of a node; it takes the next position. -/
def addChild (tree : Tree) (parent : NodeId) (symbol : Symbol) : Tree × NodeId :=
  let id := tree.size
  let nodes := link parent id (tree.nodes.push ⟨symbol, some parent, []⟩)
  ({ tree with nodes := nodes }, id)

/-- Change the symbol at a position; links are not touched. -/
def modifySymbol (tree : Tree) (id : NodeId) (change : Symbol → Symbol) : Tree :=
  { tree with
    nodes := tree.nodes.modify id fun node =>
      { node with symbol := change node.symbol } }

/-- Give a node a comment. -/
def setComment (tree : Tree) (id : NodeId) (comment : Option Comment) : Tree :=
  tree.modifySymbol id fun symbol => { symbol with comment := comment }

/--
Visit nodes from a stack: the top is visited and replaced by its children.
No more nodes are visited than asked for.
-/
def walkFrom (tree : Tree) : (limit : Nat) → List NodeId → List NodeId
  | 0, _ => []
  | _, [] => []
  | limit + 1, id :: stack =>
      id :: walkFrom tree limit (tree.childrenOf id ++ stack)

/-- The positions of all nodes, each before its descendants. -/
def walk (tree : Tree) : List NodeId :=
  tree.walkFrom tree.size [root]

/-- A child stands behind its parent, inside the tree. -/
def Forward (tree : Tree) (parent child : NodeId) : Prop :=
  parent < child ∧ child < tree.size

instance (tree : Tree) (parent child : NodeId) :
    Decidable (tree.Forward parent child) :=
  inferInstanceAs (Decidable (_ ∧ _))

/-- The outline below a node. -/
def outlineAt (tree : Tree) (id : NodeId) : Outline :=
  match tree.node? id with
  | none => .node ⟨"", 0, none, []⟩ []
  | some node =>
      .node node.symbol <| node.children.filterMap fun child =>
        if _forward : tree.Forward id child then some (tree.outlineAt child) else none
termination_by tree.size - id
decreasing_by
  obtain ⟨behind, inside⟩ := _forward
  exact Nat.sub_lt_sub_left (Nat.lt_trans behind inside) behind

/-- The outline of the whole tree. -/
def outline (tree : Tree) : Outline :=
  tree.outlineAt root

/-- The recursive pre-order below a node: the node, then its children's pre-orders. -/
def preorderAt (tree : Tree) (id : NodeId) : List NodeId :=
  id :: (tree.childrenOf id).flatMap fun child =>
    if _forward : tree.Forward id child then tree.preorderAt child else []
termination_by tree.size - id
decreasing_by
  obtain ⟨behind, inside⟩ := _forward
  exact Nat.sub_lt_sub_left (Nat.lt_trans behind inside) behind

mutual

/-- Add an outline below a node, each symbol before its descendants. -/
def graft (tree : Tree) (parent : NodeId) : Outline → Tree
  | .node symbol children =>
      let (grown, id) := tree.addChild parent symbol
      graftAll grown id children

/-- Add several outlines below a node, one after the other. -/
def graftAll (tree : Tree) (parent : NodeId) : List Outline → Tree
  | [] => tree
  | outline :: outlines => graftAll (tree.graft parent outline) parent outlines

end

/-- The tree with a given outline, its nodes numbered in pre-order, and a readme. -/
def ofOutline (outline : Outline) (readme : Option String) : Tree :=
  let planted := graftAll (withRoot outline.symbol) root outline.children
  { planted with readme := readme }

end Tree

end Concordance
