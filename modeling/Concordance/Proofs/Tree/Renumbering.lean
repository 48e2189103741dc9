import Concordance.Proofs.Tree.Layout

/-!
# Renumbering by the walk

A tree that is taken apart into its outline and put together again keeps its
symbols and its shape, but not its numbering: each node takes the position at
which the walk meets it.  `renumbered` is that tree, written down without an
outline.  It is the tree itself exactly if the walk meets the nodes in the
order of their positions.
-/

namespace Concordance

/-- The node with its links mapped to new positions. -/
def Node.relabel (label : NodeId → NodeId) (node : Node) : Node where
  symbol := node.symbol
  parent := node.parent.map label
  children := node.children.map label

namespace Tree

/-- The place of a node in the walk. -/
def place (tree : Tree) (id : NodeId) : NodeId :=
  tree.walk.idxOf id

/-- The nodes with given positions, their links mapped to labels. -/
def relabelled
    (tree : Tree)
    (label : NodeId → NodeId)
    (ids : List NodeId) : List Node :=
  ids.filterMap fun id => (tree.node? id).map (Node.relabel label)

/-- The tree with every node at its place in the walk. -/
def renumbered (tree : Tree) : Tree where
  nodes := (tree.relabelled tree.place tree.walk).toArray
  readme := tree.readme

/-! ### Places -/

theorem Linked.map_place_walk {tree : Tree} (linked : tree.Linked) :
    tree.walk.map tree.place = List.range' 0 tree.walk.length := by
  apply List.ext_getElem
  · rw [List.length_map, List.length_range']
  · intro index inside _
    rw [List.length_map] at inside
    rw [List.getElem_map, List.getElem_range', place,
      linked.nodup_walk.idxOf_getElem index inside]
    simp

theorem Linked.length_walk {tree : Tree} (linked : tree.Linked) :
    tree.walk.length = tree.size := by
  rw [linked.walk_perm.length_eq, List.length_range]

/-! ### Laying out the outline of a tree -/

theorem sizes_map
    {outlineOf : NodeId → Outline}
    {listOf : NodeId → List NodeId}
    {ids : List NodeId}
    (each : ∀ id ∈ ids, (outlineOf id).size = (listOf id).length) :
    Outline.sizes (ids.map outlineOf) = (ids.flatMap listOf).length := by
  induction ids with
  | nil => rfl
  | cons id ids induction =>
      rcases List.forall_mem_cons.mp each with ⟨first, others⟩
      rw [List.map_cons, Outline.sizes, first, induction others,
        List.flatMap_cons, List.length_append, Nat.add_comm]

/-- The outline below a node has as many symbols as its pre-order has nodes. -/
theorem Linked.size_outlineAt
    {tree : Tree}
    (linked : tree.Linked)
    {id : NodeId}
    (inside : id < tree.size) :
    (tree.outlineAt id).size = (tree.preorderAt id).length := by
  induction id using linked.inductionFromBelow with
  | step id induction =>
      rcases exists_node inside with ⟨node, found⟩
      have children := childrenOf_eq found
      rw [linked.outlineAt_eq found, Outline.size, ← children,
        linked.preorderAt_eq, List.length_cons]
      congr 1
      apply sizes_map
      intro child member
      exact induction child member (linked.forward member).2

theorem relabelled_append
    (tree : Tree)
    (label : NodeId → NodeId)
    (first second : List NodeId) :
    tree.relabelled label (first ++ second) =
      tree.relabelled label first ++ tree.relabelled label second :=
  List.filterMap_append

theorem relabelled_cons
    {tree : Tree}
    {id : NodeId}
    {node : Node}
    (found : tree.node? id = some node)
    (label : NodeId → NodeId)
    (ids : List NodeId) :
    tree.relabelled label (id :: ids) =
      node.relabel label :: tree.relabelled label ids := by
  rw [relabelled, List.filterMap_cons, found]
  rfl

/--
Whether the layout of the outline below a node lists the relabelled nodes of
its pre-order, as soon as the labels count up along that pre-order.
-/
def LaidOut (tree : Tree) (label : NodeId → NodeId) (id : NodeId) : Prop :=
  ∀ start,
    (tree.preorderAt id).map label =
      List.range' start (tree.preorderAt id).length →
    (tree.outlineAt id).nodesAt ((tree.parent? id).map label) start =
      tree.relabelled label (tree.preorderAt id)

theorem Linked.label_eq_start
    {tree : Tree}
    (linked : tree.Linked)
    {label : NodeId → NodeId}
    {id start : NodeId}
    (counted : (tree.preorderAt id).map label =
      List.range' start (tree.preorderAt id).length) :
    label id = start ∧
      ((tree.childrenOf id).flatMap tree.preorderAt).map label =
        List.range' (start + 1)
          ((tree.childrenOf id).flatMap tree.preorderAt).length := by
  rw [linked.preorderAt_eq, List.map_cons, List.length_cons,
    List.range'_succ] at counted
  exact List.cons.inj counted

/-- Siblings that are laid out one by one are laid out together. -/
theorem Linked.laidOut_siblings
    {tree : Tree}
    (linked : tree.Linked)
    {label : NodeId → NodeId}
    (parent : NodeId)
    {siblings : List NodeId}
    (each : ∀ id ∈ siblings,
      tree.parent? id = some parent ∧ tree.LaidOut label id)
    (start : NodeId)
    (counted : (siblings.flatMap tree.preorderAt).map label =
      List.range' start (siblings.flatMap tree.preorderAt).length) :
    Outline.positionsFrom start (siblings.map tree.outlineAt) =
        siblings.map label ∧
      Outline.nodesBelow (label parent) start (siblings.map tree.outlineAt) =
        tree.relabelled label (siblings.flatMap tree.preorderAt) := by
  induction siblings generalizing start with
  | nil => exact ⟨rfl, rfl⟩
  | cons id siblings induction =>
      rcases List.forall_mem_cons.mp each with ⟨⟨link, laidOut⟩, others⟩
      rw [List.flatMap_cons, List.map_append, List.length_append,
        ← List.range'_append_1] at counted
      rcases List.append_inj counted (by simp) with ⟨first, rest⟩
      have size := linked.size_outlineAt (lt_size_of_parent link)
      rw [← size] at rest
      rcases induction others _ rest with ⟨positions, nodes⟩
      rcases linked.label_eq_start first with ⟨atStart, -⟩
      have layout := laidOut start first
      rw [link] at layout
      constructor
      · rw [List.map_cons, Outline.positionsFrom, positions, List.map_cons,
          atStart]
      · rw [List.map_cons, Outline.nodesBelow, nodes, List.flatMap_cons,
          relabelled_append]
        exact congrArg (· ++ _) layout

theorem Linked.laidOut
    {tree : Tree}
    (linked : tree.Linked)
    (label : NodeId → NodeId)
    {id : NodeId}
    (inside : id < tree.size) :
    tree.LaidOut label id := by
  induction id using linked.inductionFromBelow with
  | step id induction =>
      intro start counted
      rcases exists_node inside with ⟨node, found⟩
      have children := childrenOf_eq found
      have parent : tree.parent? id = node.parent := by
        rw [parent?, found]
        rfl
      rcases linked.label_eq_start counted with ⟨atStart, below⟩
      rcases linked.laidOut_siblings id
          (fun child member =>
            ⟨linked.mem_children.mp member,
              induction child member (linked.forward member).2⟩)
          (start + 1) below with
        ⟨positions, nodes⟩
      rw [atStart] at nodes
      rw [linked.outlineAt_eq found, Outline.nodesAt, ← children, positions,
        nodes, linked.preorderAt_eq, relabelled_cons found, Node.relabel, parent,
        ← children]

/-- Taking a tree apart and putting it together again renumbers it. -/
theorem Linked.ofOutline_outline {tree : Tree} (linked : tree.Linked) :
    ofOutline tree.outline tree.readme = tree.renumbered := by
  have counted := linked.map_place_walk
  rw [linked.walk_eq] at counted
  have layout := linked.laidOut tree.place linked.root_inside 0 counted
  rw [linked.root_parent] at layout
  rw [ofOutline_eq, renumbered, linked.walk_eq, outline]
  exact congrArg (fun nodes => Tree.mk (List.toArray nodes) tree.readme) layout

/-! ### The renumbered tree -/

theorem getElem?_relabelled
    {tree : Tree}
    (label : NodeId → NodeId)
    {ids : List NodeId}
    (inside : ∀ id ∈ ids, id < tree.size)
    (index : Nat) :
    (tree.relabelled label ids)[index]? =
      ids[index]?.bind fun id => (tree.node? id).map (Node.relabel label) := by
  induction ids generalizing index with
  | nil => rfl
  | cons id ids induction =>
      rcases List.forall_mem_cons.mp inside with ⟨first, others⟩
      rcases exists_node first with ⟨node, found⟩
      rw [relabelled_cons found]
      cases index with
      | zero =>
          rw [List.getElem?_cons_zero, List.getElem?_cons_zero,
            Option.bind_some, found, Option.map_some]
      | succ index =>
          rw [List.getElem?_cons_succ, List.getElem?_cons_succ]
          exact induction others index

theorem Linked.node?_renumbered_index
    {tree : Tree}
    (linked : tree.Linked)
    (index : NodeId) :
    tree.renumbered.node? index =
      tree.walk[index]?.bind fun id =>
        (tree.node? id).map (Node.relabel tree.place) := by
  rw [node?, renumbered, List.getElem?_toArray]
  exact getElem?_relabelled tree.place (fun id member => linked.mem_walk.mp member)
    index

/-- Every node stands at its place in the walk, with its links relabelled. -/
theorem Linked.node?_renumbered
    {tree : Tree}
    (linked : tree.Linked)
    {id : NodeId}
    (inside : id < tree.size) :
    tree.renumbered.node? (tree.place id) =
      (tree.node? id).map (Node.relabel tree.place) := by
  have member := linked.mem_walk.mpr inside
  have here : tree.walk[tree.place id]? = some id := by
    rw [place, List.getElem?_eq_getElem (List.idxOf_lt_length_of_mem member)]
    exact congrArg some (List.getElem_idxOf (List.idxOf_lt_length_of_mem member))
  rw [linked.node?_renumbered_index, here, Option.bind_some]

theorem Linked.size_renumbered {tree : Tree} (linked : tree.Linked) :
    tree.renumbered.size = tree.size := by
  rw [← linked.ofOutline_outline, ofOutline_eq, size, List.size_toArray,
    Outline.length_nodesAt, outline, linked.size_outlineAt linked.root_inside,
    ← linked.walk_eq, linked.length_walk]

theorem Linked.relabel_eq_self
    {tree : Tree}
    (linked : tree.Linked)
    {label : NodeId → NodeId}
    (fixed : ∀ id, id < tree.size → label id = id)
    {id : NodeId}
    {node : Node}
    (found : tree.node? id = some node) :
    node.relabel label = node := by
  have parent : node.parent.map label = node.parent := by
    cases above : node.parent with
    | none => rfl
    | some parent =>
        have link : tree.parent? id = some parent := by
          rw [parent?, found]
          exact above
        have inside := Nat.lt_trans (linked.parent_lt link) (lt_size_of_parent link)
        rw [Option.map_some, fixed parent inside]
  have children : node.children.map label = node.children := by
    refine (List.map_congr_left ?_).trans (List.map_id' _)
    intro child member
    have listed : child ∈ tree.childrenOf id := by
      rw [childrenOf_eq found]
      exact member
    exact fixed child (linked.forward listed).2
  rw [Node.relabel, parent, children]

/-- Renumbering changes nothing exactly if the walk counts the positions up. -/
theorem Linked.renumbered_eq_self_iff {tree : Tree} (linked : tree.Linked) :
    tree.renumbered = tree ↔ tree.walk = List.range tree.size := by
  constructor
  · intro same
    have walk := walk_ofOutline tree.outline tree.readme
    rw [linked.ofOutline_outline, same] at walk
    exact walk
  · intro counts
    have fixed (id : NodeId) (inside : id < tree.size) : tree.place id = id := by
      have bound : id < (List.range tree.size).length := by
        rw [List.length_range]
        exact inside
      have back := (List.nodup_range (n := tree.size)).idxOf_getElem id bound
      rw [List.getElem_range] at back
      rw [place, counts]
      exact back
    have nodes : tree.renumbered.nodes = tree.nodes := by
      apply Array.ext_getElem?
      intro index
      change tree.renumbered.node? index = tree.node? index
      by_cases inside : index < tree.size
      · have atPlace := linked.node?_renumbered inside
        rw [fixed index inside] at atPlace
        rcases exists_node inside with ⟨node, found⟩
        rw [atPlace, found, Option.map_some, linked.relabel_eq_self fixed found]
      · have outside := Nat.le_of_not_lt inside
        rw [node?_eq_none_iff.mpr outside, node?_eq_none_iff.mpr]
        rw [linked.size_renumbered]
        exact outside
    calc
      tree.renumbered = ⟨tree.renumbered.nodes, tree.readme⟩ := rfl
      _ = ⟨tree.nodes, tree.readme⟩ := by rw [nodes]
      _ = tree := rfl

end Tree

end Concordance
