import Mathlib.Data.List.Basic
import Concordance.Tree

/-!
# Links between nodes

A tree is `Linked` if its parents and children tell the same story: the root
alone has no parent, every other node has one that stands before it, and the
children of a node are the nodes that call it their parent, each once.

Every tree that is `Built` by adding children and changing what stands at the
nodes is linked.  Changes that leave the links as they are (`SameLinks`)
leave everything as it is that depends on the links alone.
-/

namespace Concordance.Tree

/-- The parent of a node, if it has one. -/
def parent? (tree : Tree) (id : NodeId) : Option NodeId :=
  (tree.node? id).bind Node.parent

/-! ### What the operations do to a node -/

theorem node?_eq_none_iff {tree : Tree} {id : NodeId} :
    tree.node? id = none ↔ tree.size ≤ id :=
  Array.getElem?_eq_none_iff

theorem exists_node {tree : Tree} {id : NodeId} (inside : id < tree.size) :
    ∃ node, tree.node? id = some node :=
  ⟨tree.nodes[id], Array.getElem?_eq_getElem inside⟩

theorem lt_size_of_node
    {tree : Tree}
    {id : NodeId}
    {node : Node}
    (found : tree.node? id = some node) :
    id < tree.size := by
  rcases Array.getElem?_eq_some_iff.mp found with ⟨inside, -⟩
  exact inside

theorem childrenOf_eq
    {tree : Tree}
    {id : NodeId}
    {node : Node}
    (found : tree.node? id = some node) :
    tree.childrenOf id = node.children := by
  rw [childrenOf, found]

@[simp]
theorem size_withRoot (symbol : Symbol) : (withRoot symbol).size = 1 := rfl

theorem node?_withRoot (symbol : Symbol) (id : NodeId) :
    (withRoot symbol).node? id =
      if id = root then some ⟨symbol, none, []⟩ else none := by
  rw [node?, withRoot, root]
  cases id with
  | zero => rfl
  | succ id => rfl

@[simp]
theorem size_addChild (tree : Tree) (parent : NodeId) (symbol : Symbol) :
    (tree.addChild parent symbol).1.size = tree.size + 1 := by
  simp [addChild, link, size]

/-- A new node stands at the end, and its parent lists it last. -/
theorem node?_addChild
    {tree : Tree}
    {parent : NodeId}
    (inside : parent < tree.size)
    (symbol : Symbol)
    (id : NodeId) :
    (tree.addChild parent symbol).1.node? id =
      if id = tree.size then some ⟨symbol, some parent, []⟩
      else
        (tree.node? id).map fun node =>
          if id = parent then { node with children := node.children ++ [tree.size] }
          else node := by
  simp only [node?, addChild, link, Array.getElem?_modify, Array.getElem?_push]
  have other : parent ≠ tree.nodes.size := Nat.ne_of_lt inside
  by_cases last : id = tree.nodes.size
  · simp [last, size, other]
  · by_cases isParent : parent = id
    · subst isParent
      simp [size, last]
    · simp [size, last, isParent, Ne.symm isParent]

@[simp]
theorem size_modifySymbol
    (tree : Tree)
    (id : NodeId)
    (change : Symbol → Symbol) :
    (tree.modifySymbol id change).size = tree.size := by
  simp [modifySymbol, size]

theorem node?_modifySymbol
    (tree : Tree)
    (changed : NodeId)
    (change : Symbol → Symbol)
    (id : NodeId) :
    (tree.modifySymbol changed change).node? id =
      (tree.node? id).map fun node =>
        if id = changed then { node with symbol := change node.symbol }
        else node := by
  simp only [node?, modifySymbol, Array.getElem?_modify]
  by_cases same : changed = id
  · simp [same]
  · simp [same, Ne.symm same]

/-! ### Equal links -/

/-- Whether two trees have the same nodes with the same links. -/
structure SameLinks (left right : Tree) : Prop where
  size : left.size = right.size
  parent : ∀ id, left.parent? id = right.parent? id
  children : ∀ id, left.childrenOf id = right.childrenOf id

theorem SameLinks.refl (tree : Tree) : tree.SameLinks tree :=
  ⟨rfl, fun _ => rfl, fun _ => rfl⟩

theorem SameLinks.trans
    {first second third : Tree}
    (left : first.SameLinks second)
    (right : second.SameLinks third) :
    first.SameLinks third :=
  ⟨left.size.trans right.size,
    fun id => (left.parent id).trans (right.parent id),
    fun id => (left.children id).trans (right.children id)⟩

theorem sameLinks_modifySymbol
    (tree : Tree)
    (id : NodeId)
    (change : Symbol → Symbol) :
    (tree.modifySymbol id change).SameLinks tree := by
  refine ⟨size_modifySymbol tree id change, ?_, ?_⟩
  · intro other
    unfold parent?
    rw [node?_modifySymbol]
    cases tree.node? other with
    | none => rfl
    | some node => simp only [Option.map_some, Option.bind_some]; split <;> rfl
  · intro other
    unfold childrenOf
    rw [node?_modifySymbol]
    cases tree.node? other with
    | none => rfl
    | some node => simp only [Option.map_some]; split <;> rfl

theorem sameLinks_readme (tree : Tree) (readme : Option String) :
    ({ tree with readme := readme } : Tree).SameLinks tree :=
  ⟨rfl, fun _ => rfl, fun _ => rfl⟩

/-! ### Linked trees -/

/-- Whether parents and children agree, and parents stand before their children. -/
structure Linked (tree : Tree) : Prop where
  root_inside : root < tree.size
  root_parent : tree.parent? root = none
  exists_parent :
    ∀ {id}, id ≠ root → id < tree.size → ∃ parent, tree.parent? id = some parent
  parent_lt : ∀ {id parent}, tree.parent? id = some parent → parent < id
  mem_children :
    ∀ {parent child},
      child ∈ tree.childrenOf parent ↔ tree.parent? child = some parent
  children_distinct : ∀ id, (tree.childrenOf id).Nodup

theorem SameLinks.linked
    {left right : Tree}
    (same : left.SameLinks right)
    (linked : right.Linked) :
    left.Linked where
  root_inside := same.size ▸ linked.root_inside
  root_parent := (same.parent root).trans linked.root_parent
  exists_parent := by
    intro id notRoot inside
    rw [same.parent]
    rw [same.size] at inside
    exact linked.exists_parent notRoot inside
  parent_lt := by
    intro id parent found
    rw [same.parent] at found
    exact linked.parent_lt found
  mem_children := by
    intro parent child
    rw [same.children, same.parent]
    exact linked.mem_children
  children_distinct := by
    intro id
    rw [same.children]
    exact linked.children_distinct id

theorem lt_size_of_parent
    {tree : Tree}
    {id parent : NodeId}
    (found : tree.parent? id = some parent) :
    id < tree.size := by
  rcases Option.bind_eq_some_iff.mp found with ⟨node, here, -⟩
  exact lt_size_of_node here

/-- In a linked tree the children of a node stand behind it, inside the tree. -/
theorem Linked.forward
    {tree : Tree}
    (linked : tree.Linked)
    {parent child : NodeId}
    (member : child ∈ tree.childrenOf parent) :
    tree.Forward parent child := by
  have found := linked.mem_children.mp member
  exact ⟨linked.parent_lt found, lt_size_of_parent found⟩

/-! ### Built trees -/

theorem parent?_withRoot (symbol : Symbol) (id : NodeId) :
    (withRoot symbol).parent? id = none := by
  rw [parent?, node?_withRoot]
  split <;> rfl

theorem childrenOf_withRoot (symbol : Symbol) (id : NodeId) :
    (withRoot symbol).childrenOf id = [] := by
  rw [childrenOf, node?_withRoot]
  by_cases atRoot : id = root
  · rw [if_pos atRoot]
  · rw [if_neg atRoot]

theorem linked_withRoot (symbol : Symbol) : (withRoot symbol).Linked where
  root_inside := Nat.one_pos
  root_parent := rfl
  exists_parent := by
    intro id notRoot inside
    exact (notRoot (Nat.lt_one_iff.mp inside)).elim
  parent_lt := by
    intro id parent found
    rw [parent?_withRoot] at found
    cases found
  mem_children := by
    intro parent child
    rw [childrenOf_withRoot, parent?_withRoot]
    exact ⟨nofun, nofun⟩
  children_distinct := by
    intro id
    rw [childrenOf_withRoot]
    exact List.nodup_nil

theorem parent?_addChild
    {tree : Tree}
    {parent : NodeId}
    (inside : parent < tree.size)
    (symbol : Symbol)
    (id : NodeId) :
    (tree.addChild parent symbol).1.parent? id =
      if id = tree.size then some parent else tree.parent? id := by
  unfold parent?
  rw [node?_addChild inside]
  split
  · rfl
  · cases tree.node? id with
    | none => rfl
    | some node => simp only [Option.map_some, Option.bind_some]; split <;> rfl

theorem childrenOf_addChild
    {tree : Tree}
    {parent : NodeId}
    (inside : parent < tree.size)
    (symbol : Symbol)
    (id : NodeId) :
    (tree.addChild parent symbol).1.childrenOf id =
      if id = parent then tree.childrenOf parent ++ [tree.size]
      else tree.childrenOf id := by
  unfold childrenOf
  rw [node?_addChild inside]
  by_cases last : id = tree.size
  · have outside : tree.node? tree.size = none :=
      node?_eq_none_iff.mpr (Nat.le_refl _)
    rw [if_pos last, if_neg (last ▸ Nat.ne_of_gt inside), last, outside]
  · rw [if_neg last]
    by_cases isParent : id = parent
    · rcases exists_node inside with ⟨node, found⟩
      rw [isParent, found]
      simp
    · cases tree.node? id with
      | none => simp [isParent]
      | some node => simp [isParent]

theorem Linked.addChild
    {tree : Tree}
    (linked : tree.Linked)
    {parent : NodeId}
    (inside : parent < tree.size)
    (symbol : Symbol) :
    (tree.addChild parent symbol).1.Linked := by
  have childInside {other : NodeId} {child : NodeId}
      (member : child ∈ tree.childrenOf other) : child < tree.size :=
    (linked.forward member).2
  have lastHasNoParent : tree.parent? tree.size = none := by
    rw [parent?, node?_eq_none_iff.mpr (Nat.le_refl _)]
    rfl
  constructor
  · rw [size_addChild]
    exact Nat.lt_succ_of_lt linked.root_inside
  · rw [parent?_addChild inside, if_neg (Nat.ne_of_lt linked.root_inside)]
    exact linked.root_parent
  · intro id notRoot idInside
    rw [parent?_addChild inside]
    rw [size_addChild] at idInside
    split
    · exact ⟨parent, rfl⟩
    · rename_i notLast
      exact linked.exists_parent notRoot
        (Nat.lt_of_le_of_ne (Nat.le_of_lt_succ idInside) notLast)
  · intro id above found
    rw [parent?_addChild inside] at found
    split at found
    · rename_i last
      cases found
      exact last ▸ inside
    · exact linked.parent_lt found
  · intro above child
    rw [childrenOf_addChild inside, parent?_addChild inside]
    by_cases last : child = tree.size
    · rw [if_pos last]
      have notOld {other : NodeId} : child ∉ tree.childrenOf other :=
        fun member => Nat.ne_of_lt (childInside member) last
      by_cases isParent : above = parent
      · simp [isParent, last]
      · simp [isParent, notOld, Ne.symm isParent]
    · rw [if_neg last]
      by_cases isParent : above = parent
      · simp [isParent, last, linked.mem_children]
      · simp [isParent, linked.mem_children]
  · intro id
    rw [childrenOf_addChild inside]
    split
    · have fresh : tree.size ∉ tree.childrenOf parent :=
        fun member => Nat.lt_irrefl _ (childInside member)
      exact List.nodup_append.mpr
        ⟨linked.children_distinct parent, List.pairwise_singleton _ _,
          fun child member last isLast same =>
            fresh ((List.mem_singleton.mp isLast) ▸ same ▸ member)⟩
    · exact linked.children_distinct id

/--
The trees that arise from a root by adding children below nodes that are
there, in any order, and by changing symbols and the readme in any way.
-/
inductive Built : Tree → Prop where
  | withRoot (symbol : Symbol) : Built (withRoot symbol)
  | addChild {tree : Tree} {parent : NodeId}
      (built : Built tree)
      (inside : parent < tree.size)
      (symbol : Symbol) :
      Built (tree.addChild parent symbol).1
  | modifySymbol {tree : Tree}
      (built : Built tree)
      (id : NodeId)
      (change : Symbol → Symbol) :
      Built (tree.modifySymbol id change)
  | changeReadme {tree : Tree}
      (built : Built tree)
      (readme : Option String) :
      Built { tree with readme := readme }

theorem Built.setComment
    {tree : Tree}
    (built : tree.Built)
    (id : NodeId)
    (comment : Option Comment) :
    (tree.setComment id comment).Built :=
  built.modifySymbol id _

/-- Every tree that is built is linked. -/
theorem Built.linked {tree : Tree} (built : tree.Built) : tree.Linked := by
  induction built with
  | withRoot symbol => exact linked_withRoot symbol
  | addChild built inside symbol induction => exact induction.addChild inside symbol
  | modifySymbol built id change induction =>
      exact (sameLinks_modifySymbol _ id change).linked induction
  | changeReadme built readme induction =>
      exact (sameLinks_readme _ readme).linked induction

end Concordance.Tree
