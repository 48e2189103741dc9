import Mathlib.Data.List.Nodup
import Concordance.Proofs.Dump.Fidelity
import Concordance.Proofs.Index.Splicing

/-!
# Editing sessions

A session opens a tree, which is one root or the tree of a dump, and edits it:
it adds children below nodes that are there, changes what stands at a node,
changes the readme, and injects the index.  No edit but the first touches a
link, and the first adds a link that agrees with the others, so the tree is
linked at every moment of a session.

`Orderly` says what this is good for.  The links can be followed from both
ends, and the loop of the walk, written down without a limit as `Visits`, ends
with every node visited once, in the recursive order that `Preorder` describes.
-/

namespace Concordance.Tree

/-! ### The walk as a loop, and the order in which it visits -/

/--
The loop of the walk: the node on top of the stack is visited and replaced by
its children, until the stack is empty.
-/
inductive Visits (tree : Tree) : (stack order : List NodeId) → Prop where
  | done : Visits tree [] []
  | visit {id : NodeId} {node : Node} {stack order : List NodeId}
      (found : tree.node? id = some node)
      (rest : Visits tree (node.children ++ stack) order) :
      Visits tree (id :: stack) (id :: order)

/-- The recursive pre-order: a node, then the pre-orders of its children as they are listed. -/
inductive Preorder (tree : Tree) : NodeId → List NodeId → Prop where
  | node {id : NodeId} {node : Node} {orders : List (List NodeId)}
      (found : tree.node? id = some node)
      (below : List.Forall₂ (Preorder tree) node.children orders) :
      Preorder tree id (id :: orders.flatten)

/-- The loop visits in one order only. -/
theorem Visits.unique
    {tree : Tree}
    {stack first second : List NodeId}
    (left : tree.Visits stack first)
    (right : tree.Visits stack second) :
    first = second := by
  induction left generalizing second with
  | done =>
      cases right
      rfl
  | visit found _ induction =>
      cases right with
      | visit again rest =>
          rw [found] at again
          cases again
          rw [induction rest]

theorem Linked.preorder_preorderAt
    {tree : Tree}
    (linked : tree.Linked)
    {id : NodeId}
    (inside : id < tree.size) :
    tree.Preorder id (tree.preorderAt id) := by
  induction id using linked.inductionFromBelow with
  | step id induction =>
      rcases exists_node inside with ⟨node, found⟩
      rw [linked.preorderAt_eq, List.flatMap_def]
      refine .node found ?_
      rw [childrenOf_eq found, List.forall₂_map_right_iff, List.forall₂_same]
      intro child member
      rw [← childrenOf_eq found] at member
      exact induction child member (linked.forward member).2

/-- The loop works a stack off in pre-order, however long that takes. -/
theorem Linked.visits_preorder
    {tree : Tree}
    (linked : tree.Linked)
    (steps : Nat)
    (stack : List NodeId)
    (inside : ∀ id ∈ stack, id < tree.size)
    (enough : (stack.flatMap tree.preorderAt).length ≤ steps) :
    tree.Visits stack (stack.flatMap tree.preorderAt) := by
  -- The nodes below the stack get fewer with every visit, though the stack may grow.
  induction steps generalizing stack with
  | zero =>
      cases stack with
      | nil => exact .done
      | cons id stack =>
          rw [List.flatMap_cons, linked.preorderAt_eq] at enough
          exact (Nat.not_succ_le_zero _ enough).elim
  | succ steps induction =>
      cases stack with
      | nil => exact .done
      | cons id stack =>
          rcases List.forall_mem_cons.mp inside with ⟨here, others⟩
          rcases exists_node here with ⟨node, found⟩
          have unfolded : (id :: stack).flatMap tree.preorderAt =
              id :: (node.children ++ stack).flatMap tree.preorderAt := by
            rw [List.flatMap_cons, linked.preorderAt_eq, List.cons_append,
              List.flatMap_append, childrenOf_eq found]
          rw [unfolded] at enough ⊢
          refine .visit found (induction _ ?_ (Nat.le_of_succ_le_succ enough))
          intro next member
          rcases List.mem_append.mp member with child | waiting
          · rw [← childrenOf_eq found] at child
            exact (linked.forward child).2
          · exact others next waiting

/-! ### Orderly trees -/

/-- Whether links can be followed from both ends, and the walk goes through them in pre-order. -/
structure Orderly (tree : Tree) : Prop where
  root_inside : root < tree.size
  /-- The root is the only node without a parent. -/
  parentless : ∀ id, id < tree.size → (tree.parent? id = none ↔ id = root)
  /-- A parent stands before its child and lists it once. -/
  listed : ∀ {id parent}, tree.parent? id = some parent →
    parent < id ∧ (tree.childrenOf parent).count id = 1
  /-- A child that is listed calls the node that lists it its parent. -/
  answered : ∀ {parent child}, child ∈ tree.childrenOf parent →
    tree.parent? child = some parent
  /-- The loop of the walk ends. -/
  ends : tree.Visits [root] tree.walk
  /-- It has visited every node once, and nothing else. -/
  visited : ∀ id, tree.walk.count id = if id < tree.size then 1 else 0
  /-- It has visited the nodes in pre-order. -/
  ordered : tree.Preorder root tree.walk

theorem Linked.orderly {tree : Tree} (linked : tree.Linked) : tree.Orderly where
  root_inside := linked.root_inside
  parentless := by
    intro id inside
    constructor
    · intro orphan
      by_contra notRoot
      rcases linked.exists_parent notRoot inside with ⟨parent, found⟩
      rw [orphan] at found
      cases found
    · rintro rfl
      exact linked.root_parent
  listed := by
    intro id parent found
    refine ⟨linked.parent_lt found, ?_⟩
    exact List.count_eq_one_of_mem (linked.children_distinct parent)
      (linked.mem_children.mpr found)
  answered := linked.mem_children.mp
  ends := by
    have whole := linked.visits_preorder _ [root]
      (List.forall_mem_singleton.mpr linked.root_inside) (Nat.le_refl _)
    rw [List.flatMap_singleton, ← linked.walk_eq] at whole
    exact whole
  visited := by
    intro id
    rw [linked.walk_perm.count_eq, List.count_range]
  ordered := linked.walk_eq ▸ linked.preorder_preorderAt linked.root_inside

/-! ### Sessions -/

/-- The trees with which a session may open. -/
inductive Opened : Tree → Prop where
  | withRoot (symbol : Symbol) : Opened (withRoot symbol)
  | read {text : String} {tree : Tree}
      (read : Dump.read text = .ok tree) :
      Opened tree

/-- One edit of a session. -/
inductive Edit where
  /-- Add a symbol as the last child of a node. -/
  | addChild (parent : NodeId) (symbol : Symbol)
  | setComment (id : NodeId) (comment : Comment)
  /-- Change the name, the kind code, the comment or the extra members of a node. -/
  | change (id : NodeId) (change : Symbol → Symbol)
  | changeReadme (readme : Option String)
  /-- Inject the index; if that fails, the session goes on with the tree as it is. -/
  | inject (injector : Index.Injector)

/-- Edit a tree.  The nodes that an edit names must be in the tree. -/
def edit? (tree : Tree) : Edit → Option Tree
  | .addChild parent symbol =>
      if parent < tree.size then some (tree.addChild parent symbol).1 else none
  | .setComment id comment =>
      if id < tree.size then some (tree.setComment id (some comment)) else none
  | .change id change =>
      if id < tree.size then some (tree.modifySymbol id change) else none
  | .changeReadme readme => some { tree with readme := readme }
  | .inject injector => some (injector.inject tree).2

/-- Make several edits, one after the other. -/
def editAll? (tree : Tree) (edits : List Edit) : Option Tree :=
  edits.foldlM edit? tree

theorem Opened.linked {tree : Tree} (opened : tree.Opened) : tree.Linked := by
  cases opened with
  | withRoot symbol => exact linked_withRoot symbol
  | read read => exact (Dump.built_of_read read).linked

/-- An edit leaves a linked tree linked. -/
theorem Linked.edit
    {before after : Tree}
    (linked : before.Linked)
    {edit : Edit}
    (edited : before.edit? edit = some after) :
    after.Linked := by
  cases edit with
  | addChild parent symbol =>
      rw [edit?, Option.ite_none_right_eq_some] at edited
      rcases edited with ⟨inside, ⟨⟩⟩
      exact linked.addChild inside symbol
  | setComment id comment =>
      rw [edit?, Option.ite_none_right_eq_some] at edited
      rcases edited with ⟨-, ⟨⟩⟩
      exact (sameLinks_modifySymbol before id _).linked linked
  | change id change =>
      rw [edit?, Option.ite_none_right_eq_some] at edited
      rcases edited with ⟨-, ⟨⟩⟩
      exact (sameLinks_modifySymbol before id change).linked linked
  | changeReadme readme =>
      cases edited
      exact (sameLinks_readme before readme).linked linked
  | inject injector =>
      cases edited
      exact (injector.sameNames_inject before).links.linked linked

theorem Linked.editAll
    {before after : Tree}
    (linked : before.Linked)
    {edits : List Edit}
    (edited : before.editAll? edits = some after) :
    after.Linked := by
  induction edits generalizing before with
  | nil =>
      cases edited
      exact linked
  | cons edit edits induction =>
      rw [editAll?, List.foldlM_cons] at edited
      rcases Option.bind_eq_some_iff.mp edited with ⟨next, first, rest⟩
      exact induction (linked.edit first) rest

/--
At every moment of a session the tree is orderly.  The tree of a dump is
besides numbered by its walk when the session opens.
-/
theorem orderly_of_session
    {first last : Tree}
    (opened : first.Opened)
    {edits : List Edit}
    (edited : first.editAll? edits = some last) :
    last.Orderly ∧
      ∀ text, Dump.read text = .ok first → first.walk = List.range first.size := by
  refine ⟨(opened.linked.editAll edited).orderly, ?_⟩
  intro text read
  simp only [Dump.read, bind_eq_ok_iff] at read
  rcases read with ⟨whole, -, ⟨⟩, -, ⟨⟩⟩
  exact walk_ofOutline _ _

/-- A dump of a project with a class and a module. -/
def classDump : String :=
  "\x7b\"name\": \"p\", \"kind\": 1, \"comment\": \x7b\"tags\": [\x7b\"tag\": \"index\"\x7d]\x7d, "
    ++ "\"children\": [\x7b\"name\": \"C\", \"kind\": 128\x7d, \x7b\"name\": \"m\", \"kind\": 2\x7d]\x7d"

/-- The tree of that dump. -/
def classTree : Tree :=
  ⟨#[⟨⟨"p", 1, some ⟨"", [⟨"index", "", []⟩], []⟩, []⟩, none, [1, 2]⟩,
      ⟨⟨"C", 128, none, []⟩, some 0, []⟩,
      ⟨⟨"m", 2, none, []⟩, some 0, []⟩],
    none⟩

/-- A session that adds a method, renames it, comments on it and injects the index. -/
def lateMethod : List Edit :=
  [.addChild 1 ⟨"f", 2048, none, []⟩,
    .change 3 fun symbol => { symbol with name := "g" },
    .setComment 3 ⟨"Late.", [], []⟩,
    .inject (.ofMarker "index")]

/-- The method that was added last is visited before the module that stands before it. -/
theorem orderly_of_session_lateMethod :
    Dump.read classDump = .ok classTree ∧ classTree.walk = List.range 3 ∧
      ∃ last, classTree.editAll? lateMethod = some last ∧
        last.Visits [root] [0, 1, 3, 2] := by
  have read : Dump.read classDump = .ok classTree := by decide +kernel
  have walked : (classTree.editAll? lateMethod).map walk = some [0, 1, 3, 2] := by
    decide +kernel
  rcases Option.map_eq_some_iff.mp walked with ⟨last, edited, walk⟩
  rcases orderly_of_session (.read read) edited with ⟨orderly, numbered⟩
  exact ⟨read, numbered classDump read, last, edited, walk ▸ orderly.ends⟩

end Concordance.Tree
