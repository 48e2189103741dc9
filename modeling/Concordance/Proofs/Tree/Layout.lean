import Concordance.Proofs.Tree.Preorder

/-!
# Outlines laid out in an array

`Outline.nodesAt` lists the nodes of an outline whose top takes a given
position, each node before its descendants; every link is computed from the
sizes of the outlines in between.  Grafting an outline onto a tree appends
exactly these nodes, so the tree that is made of an outline is its layout
from position zero.

Reading an outline back off its layout returns the outline, and the pre-order
of a layout counts its positions up.
-/

namespace Concordance

namespace Outline

mutual

/-- How many symbols an outline has. -/
def size : Outline → Nat
  | .node _ children => sizes children + 1

/-- How many symbols several outlines have. -/
def sizes : List Outline → Nat
  | [] => 0
  | outline :: outlines => outline.size + sizes outlines

end

/-- The positions of the tops of outlines that stand one behind the other. -/
def positionsFrom (position : NodeId) : List Outline → List NodeId
  | [] => []
  | outline :: outlines =>
      position :: positionsFrom (position + outline.size) outlines

mutual

/-- The nodes of an outline whose top takes a given position. -/
def nodesAt (parent : Option NodeId) (position : NodeId) : Outline → List Node
  | .node symbol children =>
      ⟨symbol, parent, positionsFrom (position + 1) children⟩
        :: nodesBelow position (position + 1) children

/-- The nodes of outlines below one parent, from a given position. -/
def nodesBelow (parent position : NodeId) : List Outline → List Node
  | [] => []
  | outline :: outlines =>
      outline.nodesAt (some parent) position
        ++ nodesBelow parent (position + outline.size) outlines

end

mutual

@[simp]
theorem length_nodesAt :
    ∀ (outline : Outline) (parent : Option NodeId) (position : NodeId),
      (outline.nodesAt parent position).length = outline.size
  | .node _ children, _, position => by
      rw [nodesAt, List.length_cons, length_nodesBelow children, size]

@[simp]
theorem length_nodesBelow :
    ∀ (outlines : List Outline) (parent position : NodeId),
      (nodesBelow parent position outlines).length = sizes outlines
  | [], _, _ => rfl
  | outline :: outlines, _, position => by
      rw [nodesBelow, List.length_append, length_nodesAt outline,
        length_nodesBelow outlines, sizes]

end

end Outline

namespace Tree

/-! ### Grafting -/

/-- Give a node several further children, behind those that it has. -/
def linkAll
    (parent : NodeId)
    (children : List NodeId)
    (nodes : Array Node) : Array Node :=
  nodes.modify parent fun node =>
    { node with children := node.children ++ children }

theorem linkAll_linkAll
    (parent : NodeId)
    (first second : List NodeId)
    (nodes : Array Node) :
    linkAll parent second (linkAll parent first nodes) =
      linkAll parent (first ++ second) nodes := by
  apply Array.ext_getElem?
  intro id
  simp only [linkAll, Array.getElem?_modify]
  split
  · cases nodes[id]? with
    | none => rfl
    | some node => simp
  · rfl

theorem linkAll_append
    {parent : NodeId}
    {nodes : Array Node}
    (inside : parent < nodes.size)
    (children : List NodeId)
    (more : Array Node) :
    linkAll parent children (nodes ++ more) = linkAll parent children nodes ++ more := by
  apply Array.ext_getElem?
  intro id
  simp only [linkAll, Array.getElem?_modify, Array.getElem?_append,
    Array.size_modify]
  by_cases isParent : parent = id
  · subst isParent
    simp [inside]
  · simp [isParent]

theorem linkAll_push_last
    (nodes : Array Node)
    (node : Node)
    (children : List NodeId) :
    linkAll nodes.size children (nodes.push node) =
      nodes.push { node with children := node.children ++ children } := by
  apply Array.ext_getElem?
  intro id
  simp only [linkAll, Array.getElem?_modify, Array.getElem?_push]
  by_cases last : nodes.size = id
  · simp [last]
  · simp [last, Ne.symm last]

/-- Append nodes to a tree and make some of them children of an older node. -/
def extend
    (tree : Tree)
    (parent : NodeId)
    (children : List NodeId)
    (more : List Node) : Tree :=
  { tree with nodes := linkAll parent children tree.nodes ++ more.toArray }

@[simp]
theorem size_extend
    (tree : Tree)
    (parent : NodeId)
    (children : List NodeId)
    (more : List Node) :
    (tree.extend parent children more).size = tree.size + more.length := by
  simp [extend, size, linkAll]

theorem extend_nil (tree : Tree) (parent : NodeId) :
    tree.extend parent [] [] = tree := by
  have same : linkAll parent [] tree.nodes = tree.nodes := by
    apply Array.ext_getElem?
    intro id
    rw [linkAll, Array.getElem?_modify]
    split <;> simp
  rw [extend, same, Array.append_empty]

theorem extend_extend
    {tree : Tree}
    {parent : NodeId}
    (inside : parent < tree.size)
    (firstChildren secondChildren : List NodeId)
    (firstNodes secondNodes : List Node) :
    (tree.extend parent firstChildren firstNodes).extend parent secondChildren
        secondNodes =
      tree.extend parent (firstChildren ++ secondChildren)
        (firstNodes ++ secondNodes) := by
  have kept : parent < (linkAll parent firstChildren tree.nodes).size := by
    rw [linkAll, Array.size_modify]
    exact inside
  simp only [extend]
  rw [linkAll_append kept, linkAll_linkAll, Array.append_assoc,
    List.append_toArray firstNodes secondNodes]

/-- Children of a node that has just been appended are listed in that node. -/
theorem extend_below
    (tree : Tree)
    (parent : NodeId)
    (siblings children : List NodeId)
    (node : Node)
    (more : List Node) :
    (tree.extend parent siblings [node]).extend tree.size children more =
      tree.extend parent siblings
        ({ node with children := node.children ++ children } :: more) := by
  have here : (linkAll parent siblings tree.nodes).size = tree.size := by
    rw [linkAll, Array.size_modify]
    rfl
  have last := linkAll_push_last (linkAll parent siblings tree.nodes) node children
  rw [here] at last
  simp only [extend]
  rw [← Array.push_eq_append, last]
  simp

theorem addChild_eq
    {tree : Tree}
    {parent : NodeId}
    (inside : parent < tree.size)
    (symbol : Symbol) :
    tree.addChild parent symbol =
      (tree.extend parent [tree.size] [⟨symbol, some parent, []⟩], tree.size) := by
  have linked := linkAll_append inside [tree.size] #[⟨symbol, some parent, []⟩]
  rw [addChild, extend, ← linked, Array.push_eq_append]
  rfl

mutual

/-- Grafting appends the layout of an outline and links it to its parent. -/
theorem graft_eq :
    ∀ (outline : Outline) (tree : Tree) (parent : NodeId), parent < tree.size →
      tree.graft parent outline =
        tree.extend parent [tree.size] (outline.nodesAt (some parent) tree.size)
  | .node symbol children, tree, parent, inside => by
      rw [graft, addChild_eq inside]
      simp only
      rw [graftAll_eq children _ tree.size (by simp), extend_below, size_extend,
        Outline.nodesAt]
      rfl

theorem graftAll_eq :
    ∀ (outlines : List Outline) (tree : Tree) (parent : NodeId),
      parent < tree.size →
      tree.graftAll parent outlines =
        tree.extend parent (Outline.positionsFrom tree.size outlines)
          (Outline.nodesBelow parent tree.size outlines)
  | [], tree, parent, _ => by
      rw [graftAll, Outline.positionsFrom, Outline.nodesBelow, extend_nil]
  | outline :: outlines, tree, parent, inside => by
      rw [graftAll, graft_eq outline tree parent inside,
        graftAll_eq outlines _ parent
          (by rw [size_extend]; exact Nat.lt_add_right _ inside),
        extend_extend inside, size_extend, Outline.length_nodesAt,
        Outline.positionsFrom, Outline.nodesBelow]
      rfl

end

/-- The tree of an outline is its layout from position zero. -/
theorem ofOutline_eq (outline : Outline) (readme : Option String) :
    ofOutline outline readme =
      ⟨(outline.nodesAt none root).toArray, readme⟩ := by
  rcases outline with ⟨symbol, children⟩
  have inside : root < (withRoot symbol).size := Nat.one_pos
  rw [ofOutline]
  change ({ graftAll (withRoot symbol) root children with readme := readme } : Tree) = _
  rw [graftAll_eq children _ root inside, size_withRoot, Outline.nodesAt]
  simp [extend, linkAll, withRoot, root]

mutual

theorem Built.graft :
    ∀ (outline : Outline) {tree : Tree} (_ : tree.Built) {parent : NodeId},
      parent < tree.size → (tree.graft parent outline).Built
  | .node symbol children, tree, built, parent, inside => by
      have last : tree.size < (tree.addChild parent symbol).1.size := by
        rw [size_addChild]
        exact Nat.lt_succ_self _
      rw [Tree.graft]
      exact Built.graftAll children (built.addChild inside symbol) last

theorem Built.graftAll :
    ∀ (outlines : List Outline) {tree : Tree} (_ : tree.Built) {parent : NodeId},
      parent < tree.size → (tree.graftAll parent outlines).Built
  | [], _, built, _, _ => built
  | outline :: outlines, tree, built, parent, inside => by
      have still : parent < (tree.graft parent outline).size := by
        rw [graft_eq outline tree parent inside, size_extend]
        exact Nat.lt_add_right _ inside
      rw [Tree.graftAll]
      exact Built.graftAll outlines (Built.graft outline built inside) still

end

/-- The tree of an outline is built by adding its symbols one after the other. -/
theorem built_ofOutline (outline : Outline) (readme : Option String) :
    (ofOutline outline readme).Built :=
  (Built.graftAll outline.children (.withRoot outline.symbol) Nat.one_pos).changeReadme
    readme

/-! ### Reading a layout -/

/-- Whether given nodes stand in a tree from a given position. -/
def Holds (tree : Tree) (position : NodeId) (nodes : List Node) : Prop :=
  ∀ index, index < nodes.length → tree.node? (position + index) = nodes[index]?

theorem holds_cons
    {tree : Tree}
    {position : NodeId}
    {node : Node}
    {nodes : List Node} :
    tree.Holds position (node :: nodes) ↔
      tree.node? position = some node ∧ tree.Holds (position + 1) nodes := by
  constructor
  · intro holds
    refine ⟨holds 0 (Nat.succ_pos _), ?_⟩
    intro index inside
    rw [Nat.add_assoc, Nat.add_comm 1]
    exact holds (index + 1) (Nat.succ_lt_succ inside)
  · rintro ⟨first, rest⟩ index inside
    cases index with
    | zero => exact first
    | succ index =>
        have found := rest index (Nat.lt_of_succ_lt_succ inside)
        rw [Nat.add_assoc, Nat.add_comm 1] at found
        exact found

theorem holds_append
    {tree : Tree}
    {position : NodeId}
    {first second : List Node} :
    tree.Holds position (first ++ second) ↔
      tree.Holds position first ∧ tree.Holds (position + first.length) second := by
  induction first generalizing position with
  | nil => simp [Holds]
  | cons node first induction =>
      rw [List.cons_append, holds_cons, induction, holds_cons, and_assoc,
        List.length_cons, Nat.add_assoc, Nat.add_comm 1]

theorem holds_ofOutline (outline : Outline) (readme : Option String) :
    (ofOutline outline readme).Holds root (outline.nodesAt none root) := by
  intro index _
  rw [ofOutline_eq, root, Nat.zero_add, node?]
  simp

theorem Linked.outlineAt_eq
    {tree : Tree}
    (linked : tree.Linked)
    {id : NodeId}
    {node : Node}
    (found : tree.node? id = some node) :
    tree.outlineAt id = .node node.symbol (node.children.map tree.outlineAt) := by
  have children := childrenOf_eq found
  rw [outlineAt, found]
  simp only
  congr 1
  rw [← children, ← List.filterMap_eq_map]
  apply List.filterMap_congr
  intro child member
  exact dif_pos (linked.forward member)

mutual

/-- The outline is read back off its layout. -/
theorem Linked.outlineAt_of_holds
    {tree : Tree}
    (linked : tree.Linked) :
    ∀ (outline : Outline) (parent : Option NodeId) (position : NodeId),
      tree.Holds position (outline.nodesAt parent position) →
      tree.outlineAt position = outline
  | .node symbol children, parent, position, holds => by
      rw [Outline.nodesAt, holds_cons] at holds
      rcases holds with ⟨here, below⟩
      rw [linked.outlineAt_eq here]
      simp only
      rw [linked.map_outlineAt_of_holds children position (position + 1) below]

theorem Linked.map_outlineAt_of_holds
    {tree : Tree}
    (linked : tree.Linked) :
    ∀ (outlines : List Outline) (parent position : NodeId),
      tree.Holds position (Outline.nodesBelow parent position outlines) →
      (Outline.positionsFrom position outlines).map tree.outlineAt = outlines
  | [], _, _, _ => rfl
  | outline :: outlines, parent, position, holds => by
      rw [Outline.nodesBelow, holds_append, Outline.length_nodesAt] at holds
      rcases holds with ⟨first, rest⟩
      rw [Outline.positionsFrom, List.map_cons,
        linked.outlineAt_of_holds outline _ position first,
        linked.map_outlineAt_of_holds outlines parent _ rest]

end

/-- The tree of an outline has that outline. -/
@[simp]
theorem outline_ofOutline (outline : Outline) (readme : Option String) :
    (ofOutline outline readme).outline = outline :=
  (built_ofOutline outline readme).linked.outlineAt_of_holds outline none root
    (holds_ofOutline outline readme)

@[simp]
theorem readme_ofOutline (outline : Outline) (readme : Option String) :
    (ofOutline outline readme).readme = readme := rfl

mutual

/-- The pre-order of a layout counts its positions up. -/
theorem Linked.preorderAt_of_holds
    {tree : Tree}
    (linked : tree.Linked) :
    ∀ (outline : Outline) (parent : Option NodeId) (position : NodeId),
      tree.Holds position (outline.nodesAt parent position) →
      tree.preorderAt position = List.range' position outline.size
  | .node symbol children, parent, position, holds => by
      rw [Outline.nodesAt, holds_cons] at holds
      rcases holds with ⟨here, below⟩
      have listed : tree.childrenOf position =
          Outline.positionsFrom (position + 1) children :=
        childrenOf_eq here
      rw [linked.preorderAt_eq, listed,
        linked.flatMap_preorderAt_of_holds children position (position + 1) below,
        Outline.size, List.range'_succ]

theorem Linked.flatMap_preorderAt_of_holds
    {tree : Tree}
    (linked : tree.Linked) :
    ∀ (outlines : List Outline) (parent position : NodeId),
      tree.Holds position (Outline.nodesBelow parent position outlines) →
      (Outline.positionsFrom position outlines).flatMap tree.preorderAt =
        List.range' position (Outline.sizes outlines)
  | [], _, _, _ => rfl
  | outline :: outlines, parent, position, holds => by
      rw [Outline.nodesBelow, holds_append, Outline.length_nodesAt] at holds
      rcases holds with ⟨first, rest⟩
      rw [Outline.positionsFrom, List.flatMap_cons,
        linked.preorderAt_of_holds outline _ position first,
        linked.flatMap_preorderAt_of_holds outlines parent _ rest,
        Outline.sizes, ← List.range'_append_1]

end

theorem size_ofOutline (outline : Outline) (readme : Option String) :
    (ofOutline outline readme).size = outline.size := by
  rw [ofOutline_eq]
  simp [Tree.size]

/-- In the tree of an outline the walk meets the nodes in the order of their positions. -/
theorem walk_ofOutline (outline : Outline) (readme : Option String) :
    (ofOutline outline readme).walk =
      List.range (ofOutline outline readme).size := by
  have linked := (built_ofOutline outline readme).linked
  rw [linked.walk_eq, size_ofOutline, List.range_eq_range']
  exact linked.preorderAt_of_holds outline none root
    (holds_ofOutline outline readme)

end Tree

end Concordance
