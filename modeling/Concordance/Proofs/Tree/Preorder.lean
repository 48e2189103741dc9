import Concordance.Proofs.Tree.Links

/-!
# The order of a walk

In a linked tree the walk with a stack visits the nodes in recursive
pre-order, and it visits every node once.  Both facts come from the relation
`Above`, which follows parents from a node upwards: a node's pre-order lists
the nodes it is above, the root is above every node, and two nodes that are
above a third one are above one another.
-/

namespace Concordance.Tree

/-- Whether a node is reached from another one by following parents. -/
inductive Above (tree : Tree) (top : NodeId) : NodeId → Prop where
  | refl : Above tree top top
  | step {id parent : NodeId}
      (above : Above tree top parent)
      (link : tree.parent? id = some parent) :
      Above tree top id

/-! ### Following parents -/

theorem Above.trans
    {tree : Tree}
    {top middle id : NodeId}
    (first : tree.Above top middle)
    (second : tree.Above middle id) :
    tree.Above top id := by
  induction second with
  | refl => exact first
  | step _ link induction => exact induction.step link

/-- The first step down from a node leads to one of its children. -/
theorem Above.eq_or_child
    {tree : Tree}
    (linked : tree.Linked)
    {top id : NodeId}
    (above : tree.Above top id) :
    id = top ∨ ∃ child ∈ tree.childrenOf top, tree.Above child id := by
  induction above with
  | refl => exact Or.inl rfl
  | @step id parent above link induction =>
      right
      rcases induction with same | ⟨child, member, childAbove⟩
      · subst same
        exact ⟨id, linked.mem_children.mpr link, .refl⟩
      · exact ⟨child, member, childAbove.step link⟩

theorem Above.le
    {tree : Tree}
    (linked : tree.Linked)
    {top id : NodeId}
    (above : tree.Above top id) :
    top ≤ id := by
  induction above with
  | refl => exact Nat.le_refl _
  | step _ link induction =>
      exact Nat.le_trans induction (Nat.le_of_lt (linked.parent_lt link))

/-- Nodes above one node are above one another. -/
theorem Above.comparable
    {tree : Tree}
    {left right id : NodeId}
    (leftAbove : tree.Above left id)
    (rightAbove : tree.Above right id) :
    tree.Above left right ∨ tree.Above right left := by
  induction leftAbove with
  | refl => exact Or.inr rightAbove
  | @step id parent leftAbove link induction =>
      cases rightAbove with
      | refl => exact Or.inl (leftAbove.step link)
      | step rightAbove otherLink =>
          rw [link] at otherLink
          cases otherLink
          exact induction rightAbove

/-- A node is above no other child of its parent. -/
theorem Linked.siblings_not_above
    {tree : Tree}
    (linked : tree.Linked)
    {parent left right : NodeId}
    (leftChild : left ∈ tree.childrenOf parent)
    (rightChild : right ∈ tree.childrenOf parent)
    (distinct : left ≠ right) :
    ¬ tree.Above left right := by
  intro above
  cases above with
  | refl => exact distinct rfl
  | step above link =>
      rw [linked.mem_children.mp rightChild] at link
      cases link
      exact Nat.not_le_of_lt (linked.forward leftChild).1 (above.le linked)

theorem Linked.root_above
    {tree : Tree}
    (linked : tree.Linked)
    {id : NodeId}
    (inside : id < tree.size) :
    tree.Above root id := by
  induction id using Nat.strongRecOn with
  | ind id induction =>
      by_cases atRoot : id = root
      · exact atRoot ▸ .refl
      · rcases linked.exists_parent atRoot inside with ⟨parent, link⟩
        have before := linked.parent_lt link
        exact (induction parent before (Nat.lt_trans before inside)).step link

/-! ### The recursive pre-order -/

/-- Induction from the last node towards the root: below a node come its children. -/
theorem Linked.inductionFromBelow
    {tree : Tree}
    (linked : tree.Linked)
    {motive : NodeId → Prop}
    (step : ∀ id, (∀ child ∈ tree.childrenOf id, motive child) → motive id)
    (id : NodeId) :
    motive id := by
  apply step
  intro child member
  exact linked.inductionFromBelow step child
termination_by tree.size - id
decreasing_by
  rcases linked.forward member with ⟨behind, inside⟩
  exact Nat.sub_lt_sub_left (Nat.lt_trans behind inside) behind

theorem Linked.preorderAt_eq
    {tree : Tree}
    (linked : tree.Linked)
    (id : NodeId) :
    tree.preorderAt id = id :: (tree.childrenOf id).flatMap tree.preorderAt := by
  rw [preorderAt]
  congr 1
  apply List.flatMap_congr
  intro child member
  exact dif_pos (linked.forward member)

/-- The pre-order from a node lists the nodes it is above. -/
theorem Linked.mem_preorderAt
    {tree : Tree}
    (linked : tree.Linked)
    {top id : NodeId} :
    id ∈ tree.preorderAt top ↔ tree.Above top id := by
  induction top using linked.inductionFromBelow with
  | step top induction =>
      rw [linked.preorderAt_eq, List.mem_cons, List.mem_flatMap]
      constructor
      · rintro (rfl | ⟨child, member, inside⟩)
        · exact .refl
        · have link := linked.mem_children.mp member
          exact (Above.refl.step link).trans ((induction child member).mp inside)
      · intro above
        rcases above.eq_or_child linked with same | ⟨child, member, childAbove⟩
        · exact Or.inl same
        · exact Or.inr ⟨child, member, (induction child member).mpr childAbove⟩

theorem Linked.nodup_preorderAt
    {tree : Tree}
    (linked : tree.Linked)
    (id : NodeId) :
    (tree.preorderAt id).Nodup := by
  induction id using linked.inductionFromBelow with
  | step id induction =>
      rw [linked.preorderAt_eq, List.nodup_cons]
      constructor
      · intro again
        rcases List.mem_flatMap.mp again with ⟨child, member, inside⟩
        have above := linked.mem_preorderAt.mp inside
        exact Nat.not_le_of_lt (linked.forward member).1 (above.le linked)
      · apply List.pairwise_flatMap.mpr
        refine ⟨induction, ?_⟩
        apply (linked.children_distinct id).imp_of_mem
        intro left right leftChild rightChild distinct first inLeft second inRight same
        subst same
        rcases (linked.mem_preorderAt.mp inLeft).comparable
            (linked.mem_preorderAt.mp inRight) with above | above
        · exact linked.siblings_not_above leftChild rightChild distinct above
        · exact linked.siblings_not_above rightChild leftChild (Ne.symm distinct) above

/-- The pre-order from the root lists every node once. -/
theorem Linked.preorder_perm
    {tree : Tree}
    (linked : tree.Linked) :
    (tree.preorderAt root).Perm (List.range tree.size) := by
  apply (List.perm_ext_iff_of_nodup (linked.nodup_preorderAt root)
    List.nodup_range).mpr
  intro id
  rw [linked.mem_preorderAt, List.mem_range]
  constructor
  · intro above
    cases above with
    | refl => exact linked.root_inside
    | step _ link => exact lt_size_of_parent link
  · exact linked.root_above

/-! ### The walk -/

/-- A stack with room for all that is below it is worked off in pre-order. -/
theorem Linked.walkFrom_eq
    {tree : Tree}
    (linked : tree.Linked)
    (limit : Nat)
    (stack : List NodeId)
    (room : (stack.flatMap tree.preorderAt).length ≤ limit) :
    tree.walkFrom limit stack = stack.flatMap tree.preorderAt := by
  induction limit generalizing stack with
  | zero =>
      rw [List.length_eq_zero_iff.mp (Nat.le_zero.mp room), walkFrom]
  | succ limit induction =>
      cases stack with
      | nil => rfl
      | cons id stack =>
          have unfolded : (id :: stack).flatMap tree.preorderAt =
              id :: (tree.childrenOf id ++ stack).flatMap tree.preorderAt := by
            rw [List.flatMap_cons, linked.preorderAt_eq, List.cons_append,
              List.flatMap_append]
          rw [unfolded] at room ⊢
          rw [walkFrom, induction _ (Nat.le_of_succ_le_succ room)]

/-- The walk visits the nodes in recursive pre-order. -/
theorem Linked.walk_eq
    {tree : Tree}
    (linked : tree.Linked) :
    tree.walk = tree.preorderAt root := by
  have whole := linked.walkFrom_eq tree.size [root]
  rw [List.flatMap_singleton] at whole
  apply whole
  have length := linked.preorder_perm.length_eq
  rw [List.length_range] at length
  exact Nat.le_of_eq length

/-- The walk visits every node once. -/
theorem Linked.walk_perm
    {tree : Tree}
    (linked : tree.Linked) :
    tree.walk.Perm (List.range tree.size) :=
  linked.walk_eq ▸ linked.preorder_perm

theorem Linked.mem_walk
    {tree : Tree}
    (linked : tree.Linked)
    {id : NodeId} :
    id ∈ tree.walk ↔ id < tree.size := by
  rw [linked.walk_perm.mem_iff, List.mem_range]

theorem Linked.nodup_walk
    {tree : Tree}
    (linked : tree.Linked) :
    tree.walk.Nodup :=
  linked.walk_perm.nodup_iff.mpr List.nodup_range

/-- The walk depends on the links alone. -/
theorem SameLinks.walk_eq
    {left right : Tree}
    (same : left.SameLinks right) :
    left.walk = right.walk := by
  have step (limit : Nat) (stack : List NodeId) :
      left.walkFrom limit stack = right.walkFrom limit stack := by
    induction limit generalizing stack with
    | zero => rfl
    | succ limit induction =>
        cases stack with
        | nil => rfl
        | cons id stack => rw [walkFrom, walkFrom, same.children, induction]
  rw [walk, walk, same.size, step]

end Concordance.Tree
