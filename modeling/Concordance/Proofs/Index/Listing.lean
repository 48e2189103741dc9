import Mathlib
import Concordance.Proofs.Index.Collecting

/-!
# Collecting in the order of the walk

The collector goes down the outline and hands every symbol the name of its
parent.  This module reads the same index off the walk and off the links
between nodes: collecting is one pass over the walk that looks at a node and
at the name of its parent, so the first node of the walk that cannot be
classified decides the error, and otherwise there is one entry for each node
of a listed kind.

`Offends` says what can be wrong with a node, `Lists` which entry is that of
a node, and `Indexes` which list of nodes with their entries is the index: it
is sorted by the upper-case names, and nodes whose upper-case names agree
stand in the order of the walk.
-/

namespace Concordance

theorem Kind.ofCode?_eq_some_iff {kindCode : UInt32} {kind : Kind} :
    ofCode? kindCode = some kind ↔ kind.code = kindCode := by
  constructor
  · intro found
    have same : (kind.code == kindCode) = true :=
      List.find?_some (p := fun other : Kind => other.code == kindCode) found
    exact beq_iff_eq.mp same
  · rintro rfl
    exact ofCode?_code kind

theorem Kind.ofCode?_eq_none_iff {kindCode : UInt32} :
    ofCode? kindCode = none ↔ ∀ kind : Kind, kind.code ≠ kindCode := by
  rw [Option.eq_none_iff_forall_ne_some]
  exact forall_congr' fun _ => not_congr ofCode?_eq_some_iff

theorem Tree.lt_size_of_symbol
    {tree : Tree}
    {id : NodeId}
    {symbol : Symbol}
    (found : tree.symbol? id = some symbol) :
    id < tree.size := by
  rcases Option.map_eq_some_iff.mp found with ⟨node, here, -⟩
  exact lt_size_of_node here

theorem Tree.parentName?_eq (tree : Tree) (id : NodeId) :
    tree.parentName? id =
      (tree.parent? id).bind fun parent => (tree.symbol? parent).map Symbol.name := by
  rw [parentName?, parent?]
  cases tree.node? id with
  | none => rfl
  | some node =>
      change (node.parent >>= _) = node.parent.bind _
      cases node.parent with
      | none => rfl
      | some parent =>
          change (tree.symbol? parent >>= _) = (tree.symbol? parent).map _
          cases tree.symbol? parent <;> rfl

/-- The root is the only node of a linked tree whose parent has no name. -/
theorem Tree.Linked.parentName?_eq_none_iff
    {tree : Tree}
    (linked : tree.Linked)
    {id : NodeId}
    (inside : id < tree.size) :
    tree.parentName? id = none ↔ id = root := by
  rw [parentName?_eq]
  constructor
  · intro nameless
    by_contra notRoot
    rcases linked.exists_parent notRoot inside with ⟨parent, link⟩
    rcases exists_node (Nat.lt_trans (linked.parent_lt link) inside) with ⟨node, found⟩
    rw [link, Option.bind_some, symbol?, found] at nameless
    cases nameless
  · rintro rfl
    rw [linked.root_parent]
    rfl

theorem Tree.Linked.parentName?_child
    {tree : Tree}
    (linked : tree.Linked)
    {id child : NodeId}
    (member : child ∈ tree.childrenOf id)
    {symbol : Symbol}
    (found : tree.symbol? id = some symbol) :
    tree.parentName? child = some symbol.name := by
  rw [parentName?_eq, linked.mem_children.mp member, Option.bind_some, found]
  rfl

namespace Index

/-! ### One pass over the walk -/

/-- What the collector makes of a node: an entry, nothing, or an error. -/
def entryAt (tree : Tree) (id : NodeId) : Except IndexError (Option Entry) :=
  match tree.symbol? id with
  | none => .ok none
  | some symbol => symbolEntry? (tree.parentName? id) symbol

/-- The entries that the collector makes of nodes, one node after the other. -/
def entriesAt (tree : Tree) (ids : List NodeId) : Except IndexError (List Entry) := do
  let found ← ids.mapM (entryAt tree)
  pure found.reduceOption

theorem entriesAt_cons (tree : Tree) (id : NodeId) (ids : List NodeId) :
    entriesAt tree (id :: ids) = (do
      let entry ← entryAt tree id
      let below ← entriesAt tree ids
      pure (entry.toList ++ below)) := by
  simp only [entriesAt, List.mapM_cons, bind_assoc, pure_bind]
  congr 1
  funext entry
  cases entry <;> rfl

theorem entriesAt_append (tree : Tree) (first second : List NodeId) :
    entriesAt tree (first ++ second) = (do
      let before ← entriesAt tree first
      let behind ← entriesAt tree second
      pure (before ++ behind)) := by
  simp only [entriesAt, List.mapM_append, bind_assoc, pure_bind,
    List.reduceOption_append]

theorem outlinesEntries_map
    {tree : Tree}
    {parentName : Option String}
    {outlineOf : NodeId → Outline}
    {idsOf : NodeId → List NodeId}
    {ids : List NodeId}
    (each : ∀ id ∈ ids,
      outlineEntries parentName (outlineOf id) = entriesAt tree (idsOf id)) :
    outlinesEntries parentName (ids.map outlineOf) =
      entriesAt tree (ids.flatMap idsOf) := by
  induction ids with
  | nil => rfl
  | cons id ids induction =>
      rcases List.forall_mem_cons.mp each with ⟨first, others⟩
      rw [List.map_cons, outlinesEntries, first, induction others, List.flatMap_cons,
        entriesAt_append]

/-- Going down the outline of a node is going over the pre-order below it. -/
theorem outlineEntries_outlineAt
    {tree : Tree}
    (linked : tree.Linked)
    {id : NodeId}
    (inside : id < tree.size) :
    outlineEntries (tree.parentName? id) (tree.outlineAt id) =
      entriesAt tree (tree.preorderAt id) := by
  -- The parent name that the collector hands down is the one that the link of a child leads to.
  induction id using linked.inductionFromBelow with
  | step id induction =>
      rcases Tree.exists_node inside with ⟨node, found⟩
      have symbol : tree.symbol? id = some node.symbol := by
        rw [Tree.symbol?, found]
        rfl
      have children := (Tree.childrenOf_eq found).symm
      have here : entryAt tree id = symbolEntry? (tree.parentName? id) node.symbol := by
        rw [entryAt, symbol]
      have below : outlinesEntries (some node.symbol.name)
            ((tree.childrenOf id).map tree.outlineAt) =
          entriesAt tree ((tree.childrenOf id).flatMap tree.preorderAt) := by
        apply outlinesEntries_map
        intro child member
        rw [← linked.parentName?_child member symbol]
        exact induction child member (linked.forward member).2
      rw [linked.outlineAt_eq found, outlineEntries, children, below,
        linked.preorderAt_eq, entriesAt_cons, here]

/-- Collecting is one pass over the walk. -/
theorem collect_eq
    {tree : Tree}
    (linked : tree.Linked) :
    collect tree = (do
      let entries ← entriesAt tree tree.walk
      pure (sortEntries entries)) := by
  have nameless := (linked.parentName?_eq_none_iff linked.root_inside).mpr rfl
  rw [collect, Tree.outline, ← nameless,
    outlineEntries_outlineAt linked linked.root_inside, linked.walk_eq]

/-! ### What the collector makes of a node -/

/--
What is wrong with a node: its code is no kind's, it is of a kind that must
not occur, or it is the root and of a listed kind.
-/
inductive Offends (tree : Tree) (id : NodeId) : IndexError → Prop where
  | unknownKind {symbol : Symbol}
      (found : tree.symbol? id = some symbol)
      (uncatalogued : ∀ kind : Kind, kind.code ≠ symbol.kindCode) :
      Offends tree id (.unknownKind symbol.name symbol.kindCode)
  | unhandledKind {symbol : Symbol} {kind : Kind}
      (found : tree.symbol? id = some symbol)
      (coded : kind.code = symbol.kindCode)
      (unhandled : kind.disposition = .unhandled) :
      Offends tree id (.unhandledKind symbol.name kind)
  | orphan {symbol : Symbol} {kind : Kind}
      (found : tree.symbol? id = some symbol)
      (coded : kind.code = symbol.kindCode)
      (listed : kind.disposition = .index)
      (atRoot : id = Tree.root) :
      Offends tree id (.orphan symbol.name kind)

theorem Offends.inside
    {tree : Tree}
    {id : NodeId}
    {error : IndexError}
    (offends : Offends tree id error) :
    id < tree.size := by
  cases offends with
  | unknownKind found _ => exact Tree.lt_size_of_symbol found
  | unhandledKind found _ _ => exact Tree.lt_size_of_symbol found
  | orphan found _ _ _ => exact Tree.lt_size_of_symbol found

/-- Whether an entry is that of a node, which then is of a listed kind and has a parent. -/
structure Lists (tree : Tree) (id : NodeId) (entry : Entry) : Prop where
  name : (tree.symbol? id).map Symbol.name = some entry.name
  kind : (tree.symbol? id).map Symbol.kindCode = some entry.kind.code
  listed : entry.kind.disposition = .index
  parentName : tree.parentName? id = some entry.parentName

theorem entryAt_eq_error_iff
    {tree : Tree}
    (linked : tree.Linked)
    {id : NodeId}
    {error : IndexError} :
    entryAt tree id = .error error ↔ Offends tree id error := by
  rw [entryAt]
  cases found : tree.symbol? id with
  | none =>
      constructor
      · exact nofun
      · rintro (⟨here, -⟩ | ⟨here, -⟩ | ⟨here, -⟩) <;>
          · rw [found] at here
            cases here
  | some symbol =>
      have nameless := linked.parentName?_eq_none_iff (Tree.lt_size_of_symbol found)
      unfold symbolEntry?
      simp only
      constructor
      · intro failed
        split at failed
        · rename_i unknown
          cases failed
          exact .unknownKind found (Kind.ofCode?_eq_none_iff.mp unknown)
        · rename_i kind known
          have coded := Kind.ofCode?_eq_some_iff.mp known
          split at failed
          · cases failed
          · rename_i listed orphaned
            cases failed
            exact .orphan found coded listed (nameless.mp orphaned)
          · cases failed
          · rename_i unhandled
            cases failed
            exact .unhandledKind found coded unhandled
      · intro offends
        cases offends with
        | unknownKind here uncatalogued =>
            rw [found] at here
            cases here
            rw [Kind.ofCode?_eq_none_iff.mpr uncatalogued]
        | unhandledKind here coded unhandled =>
            rw [found] at here
            cases here
            rw [← coded, Kind.ofCode?_code]
            simp only [unhandled]
        | orphan here coded listed atRoot =>
            rw [found] at here
            cases here
            rw [← coded, Kind.ofCode?_code, nameless.mpr atRoot]
            simp only [listed]

theorem entryAt_eq_some_iff
    {tree : Tree}
    {id : NodeId}
    {entry : Entry} :
    entryAt tree id = .ok (some entry) ↔ Lists tree id entry := by
  rcases entry with ⟨name, kind, parentName⟩
  rw [entryAt]
  cases found : tree.symbol? id with
  | none =>
      constructor
      · exact nofun
      · rintro ⟨name, -⟩
        rw [found] at name
        cases name
  | some symbol =>
      unfold symbolEntry?
      simp only
      constructor
      · intro made
        split at made
        · cases made
        · rename_i kind known
          have coded := Kind.ofCode?_eq_some_iff.mp known
          split at made
          · rename_i parentName listed named
            cases made
            refine ⟨?_, ?_, listed, named⟩
            · rw [found]
              rfl
            · rw [found, Option.map_some, ← coded]
          all_goals cases made
      · rintro ⟨named, coded, listed, below⟩
        rw [found] at named coded
        have named : symbol.name = name := Option.some.inj named
        have coded : symbol.kindCode = kind.code := Option.some.inj coded
        simp only at listed below
        rw [coded, Kind.ofCode?_code, below, named]
        simp only [listed]

/-! ### Which node decides -/

/-- What is wrong with the first node of the walk with which something is wrong. -/
def FirstOffence (tree : Tree) (error : IndexError) : Prop :=
  ∃ before id after,
    tree.walk = before ++ id :: after ∧
    (∀ earlier ∈ before, ∀ other, ¬ Offends tree earlier other) ∧
    Offends tree id error

theorem exists_entryAt_eq_ok_iff
    {tree : Tree}
    (linked : tree.Linked)
    {id : NodeId} :
    (∃ entry, entryAt tree id = .ok entry) ↔ ∀ error, ¬ Offends tree id error := by
  simp only [← entryAt_eq_error_iff linked]
  cases entryAt tree id with
  | ok entry => exact ⟨fun _ => nofun, fun _ => ⟨entry, rfl⟩⟩
  | error error => exact ⟨nofun, fun settled => (settled error rfl).elim⟩

theorem entriesAt_eq_error_iff
    {tree : Tree}
    (linked : tree.Linked)
    {ids : List NodeId}
    {error : IndexError} :
    entriesAt tree ids = .error error ↔
      ∃ before id after,
        ids = before ++ id :: after ∧
        (∀ earlier ∈ before, ∀ other, ¬ Offends tree earlier other) ∧
        Offends tree id error := by
  have noneLater (found : List (Option Entry)) :
      (pure found.reduceOption : Except IndexError (List Entry)) ≠ .error error := nofun
  simp only [entriesAt, bind_eq_error_iff, noneLater, and_false, exists_false, or_false,
    mapM_eq_error_iff, exists_entryAt_eq_ok_iff linked, entryAt_eq_error_iff linked]

/-- The first node of the walk that offends decides the error. -/
theorem collect_eq_error_iff
    {tree : Tree}
    (linked : tree.Linked)
    {error : IndexError} :
    collect tree = .error error ↔ FirstOffence tree error := by
  rw [FirstOffence, ← entriesAt_eq_error_iff linked, collect_eq linked, bind_eq_error_iff]
  constructor
  · rintro (failed | ⟨_, _, ⟨⟩⟩)
    exact failed
  · exact .inl

/-! ### The entries of the nodes -/

/-- The nodes of a list that have entries, with their entries. -/
def pairsAt (tree : Tree) (ids : List NodeId) : List (NodeId × Entry) :=
  ids.filterMap fun id => (entryAt tree id).toOption.join.map (id, ·)

theorem mem_pairsAt
    {tree : Tree}
    {ids : List NodeId}
    {id : NodeId}
    {entry : Entry} :
    (id, entry) ∈ pairsAt tree ids ↔ id ∈ ids ∧ Lists tree id entry := by
  have made (other : NodeId) :
      (entryAt tree other).toOption.join = some entry ↔ Lists tree other entry := by
    rw [← entryAt_eq_some_iff]
    cases entryAt tree other with
    | error error => exact ⟨nofun, nofun⟩
    | ok found => exact ⟨congrArg _, Except.ok.inj⟩
  rw [pairsAt, List.mem_filterMap]
  constructor
  · rintro ⟨other, member, paired⟩
    rcases Option.map_eq_some_iff.mp paired with ⟨_, found, ⟨⟩⟩
    exact ⟨member, (made id).mp found⟩
  · rintro ⟨member, lists⟩
    refine ⟨id, member, ?_⟩
    rw [(made id).mpr lists]
    rfl

theorem map_fst_pairsAt_sublist (tree : Tree) (ids : List NodeId) :
    ((pairsAt tree ids).map Prod.fst).Sublist ids := by
  rw [pairsAt, List.map_filterMap]
  induction ids with
  | nil => exact .slnil
  | cons id ids induction =>
      rw [List.filterMap_cons]
      cases (entryAt tree id).toOption.join with
      | none => exact induction.cons id
      | some entry => exact induction.cons_cons id

theorem entriesAt_eq_ok_iff
    {tree : Tree}
    (linked : tree.Linked)
    {ids : List NodeId}
    {entries : List Entry} :
    entriesAt tree ids = .ok entries ↔
      (∀ id ∈ ids, ∀ error, ¬ Offends tree id error) ∧
        (pairsAt tree ids).map Prod.snd = entries := by
  induction ids generalizing entries with
  | nil =>
      constructor
      · rintro ⟨⟩
        exact ⟨List.forall_mem_nil _, rfl⟩
      · rintro ⟨-, rfl⟩
        rfl
  | cons id ids induction =>
      rw [entriesAt_cons, List.forall_mem_cons, ← exists_entryAt_eq_ok_iff linked]
      simp only [bind_eq_ok_iff, induction, pairsAt, List.filterMap_cons]
      cases entryAt tree id with
      | error error =>
          constructor
          · rintro ⟨_, ⟨⟩, -⟩
          · rintro ⟨⟨⟨_, ⟨⟩⟩, -⟩, -⟩
      | ok entry =>
          constructor
          · rintro ⟨_, ⟨⟩, below, ⟨settled, rfl⟩, ⟨⟩⟩
            refine ⟨⟨⟨entry, rfl⟩, settled⟩, ?_⟩
            cases entry <;> rfl
          · rintro ⟨⟨-, settled⟩, rfl⟩
            refine ⟨entry, rfl, _, ⟨settled, rfl⟩, ?_⟩
            cases entry <;> rfl

theorem Lists.unique
    {tree : Tree}
    {id : NodeId}
    {first second : Entry}
    (left : Lists tree id first)
    (right : Lists tree id second) :
    first = second := by
  have same := (entryAt_eq_some_iff.mpr left).symm.trans (entryAt_eq_some_iff.mpr right)
  exact Option.some.inj (Except.ok.inj same)

/-- A node has an entry if its symbol is listed and nothing is wrong with it. -/
theorem exists_lists_iff
    {tree : Tree}
    (linked : tree.Linked)
    {id : NodeId}
    (settled : ∀ error, ¬ Offends tree id error) :
    (∃ entry, Lists tree id entry) ↔
      ∃ symbol, tree.symbol? id = some symbol ∧ symbol.listed = true := by
  constructor
  · rintro ⟨entry, lists⟩
    rcases Option.map_eq_some_iff.mp lists.kind with ⟨symbol, found, coded⟩
    refine ⟨symbol, found, ?_⟩
    rw [Symbol.listed, coded, Kind.ofCode?_code]
    exact beq_iff_eq.mpr lists.listed
  · rintro ⟨symbol, found, listed⟩
    rw [Symbol.listed] at listed
    split at listed
    · rename_i kind known
      have coded := Kind.ofCode?_eq_some_iff.mp known
      have indexed : kind.disposition = .index := beq_iff_eq.mp listed
      have inside := Tree.lt_size_of_symbol found
      have named : tree.parentName? id ≠ none := by
        intro nameless
        have atRoot := (linked.parentName?_eq_none_iff inside).mp nameless
        exact settled _ (.orphan found coded indexed atRoot)
      rcases Option.ne_none_iff_exists'.mp named with ⟨parentName, above⟩
      refine ⟨⟨symbol.name, kind, parentName⟩, ?_, ?_, indexed, above⟩
      · rw [found]
        rfl
      · rw [found, Option.map_some, coded]
    · cases listed

/-! ### Stable sorting -/

section

variable {Element : Type} {list : List Element}

theorem not_sublist_pair_swap
    {first second : Element}
    (distinct : list.Nodup)
    (forwards : [first, second].Sublist list) :
    ¬ [second, first].Sublist list := by
  induction list with
  | nil => cases forwards
  | cons head tail induction =>
      rcases List.nodup_cons.mp distinct with ⟨absent, rest⟩
      intro backwards
      cases forwards with
      | cons _ forwards =>
          cases backwards with
          | cons _ backwards => exact induction rest forwards backwards
          | cons_cons _ backwards =>
              exact absent (forwards.subset (by simp))
      | cons_cons _ forwards =>
          cases backwards with
          | cons _ backwards => exact absent (backwards.subset (by simp))
          | cons_cons _ backwards => exact absent (forwards.subset (by simp))

theorem sublist_pair_or_swap
    {first second : Element}
    (firstInside : first ∈ list)
    (secondInside : second ∈ list)
    (different : first ≠ second) :
    [first, second].Sublist list ∨ [second, first].Sublist list := by
  induction list with
  | nil => cases firstInside
  | cons head tail induction =>
      rcases List.mem_cons.mp firstInside with rfl | firstInTail
      · have secondInTail := (List.mem_cons.mp secondInside).resolve_left (Ne.symm different)
        exact .inl ((List.singleton_sublist.mpr secondInTail).cons_cons first)
      · rcases List.mem_cons.mp secondInside with rfl | secondInTail
        · exact .inr ((List.singleton_sublist.mpr firstInTail).cons_cons second)
        · exact (induction firstInTail secondInTail).imp (.cons head) (.cons head)

/-- Elements that may stand in either order stay in the order in which they stood. -/
theorem pairwise_mergeSort_stable
    {le : Element → Element → Bool}
    (transitive : ∀ first second third,
      le first second = true → le second third = true → le first third = true)
    (total : ∀ first second, (le first second || le second first) = true)
    (distinct : list.Nodup) :
    (list.mergeSort le).Pairwise fun first second =>
      le second first = true → [first, second].Sublist list := by
  have sortedDistinct : (list.mergeSort le).Nodup :=
    (List.mergeSort_perm list le).nodup_iff.mpr distinct
  rw [List.pairwise_iff_forall_sublist]
  intro first second inSorted exchangeable
  have firstInside : first ∈ list :=
    List.mem_mergeSort.mp (inSorted.subset (by simp))
  have secondInside : second ∈ list :=
    List.mem_mergeSort.mp (inSorted.subset (by simp))
  have different : first ≠ second := by
    rintro rfl
    exact List.nodup_iff_sublist.mp sortedDistinct first inSorted
  -- Had they stood the other way round, the sort would have kept them so.
  rcases sublist_pair_or_swap firstInside secondInside different with forwards | backwards
  · exact forwards
  · have swapped := List.pair_sublist_mergeSort transitive total exchangeable backwards
    exact (not_sublist_pair_swap sortedDistinct inSorted swapped).elim

end

/-! ### The index -/

/-- Whether an entry may stand before another one in the index. -/
def inOrder (first second : NodeId × Entry) : Bool :=
  first.2.sortKey ≤ second.2.sortKey

theorem inOrder_trans
    (first second third : NodeId × Entry)
    (left : inOrder first second = true)
    (right : inOrder second third = true) :
    inOrder first third = true :=
  decide_eq_true (String.le_trans (of_decide_eq_true left) (of_decide_eq_true right))

theorem inOrder_total (first second : NodeId × Entry) :
    (inOrder first second || inOrder second first) = true := by
  rw [Bool.or_eq_true]
  exact (String.le_total _ _).imp decide_eq_true decide_eq_true

/-- Sorting entries sorts the nodes to which they belong. -/
theorem sortEntries_map_snd (pairs : List (NodeId × Entry)) :
    sortEntries (pairs.map Prod.snd) = (pairs.mergeSort inOrder).map Prod.snd := by
  have keyed : (pairs.map Prod.snd).map (fun entry => (entry.sortKey, entry)) =
      pairs.map fun pair => (pair.2.sortKey, pair.2) := by
    rw [List.map_map]
    rfl
  have sorted : (pairs.mergeSort inOrder).map (fun pair => (pair.2.sortKey, pair.2)) =
      (pairs.map fun pair => (pair.2.sortKey, pair.2)).mergeSort
        fun left right => left.1 ≤ right.1 :=
    List.map_mergeSort fun _ _ _ _ => rfl
  simp only [sortEntries]
  rw [keyed, ← sorted, List.map_map]
  rfl

/--
Whether nodes with their entries make up the index of a tree: one entry for
each node of a listed kind, sorted by the upper-case names, in the order of
the walk where these agree.
-/
structure Indexes (tree : Tree) (pairs : List (NodeId × Entry)) : Prop where
  lists : ∀ pair ∈ pairs, Lists tree pair.1 pair.2
  once : (pairs.map Prod.fst).Nodup
  complete :
    ∀ id symbol, tree.symbol? id = some symbol → symbol.listed = true →
      id ∈ pairs.map Prod.fst
  sorted : pairs.Pairwise fun first second => first.2.sortKey ≤ second.2.sortKey
  stable :
    pairs.Pairwise fun first second =>
      first.2.sortKey = second.2.sortKey → [first.1, second.1].Sublist tree.walk

theorem Indexes.mem_iff
    {tree : Tree}
    {pairs : List (NodeId × Entry)}
    (indexes : Indexes tree pairs)
    {id : NodeId}
    {entry : Entry} :
    (id, entry) ∈ pairs ↔ Lists tree id entry := by
  constructor
  · exact indexes.lists (id, entry)
  · intro lists
    rcases Option.map_eq_some_iff.mp lists.kind with ⟨symbol, found, coded⟩
    have listed : symbol.listed = true := by
      rw [Symbol.listed, coded, Kind.ofCode?_code]
      exact beq_iff_eq.mpr lists.listed
    rcases List.mem_map.mp (indexes.complete id symbol found listed) with
      ⟨⟨_, other⟩, member, ⟨⟩⟩
    rw [lists.unique (indexes.lists _ member)]
    exact member

/-- A tree has one index only. -/
theorem Indexes.unique
    {tree : Tree}
    (linked : tree.Linked)
    {left right : List (NodeId × Entry)}
    (leftIndexes : Indexes tree left)
    (rightIndexes : Indexes tree right) :
    left = right := by
  have same : left.Perm right := by
    apply (List.perm_ext_iff_of_nodup leftIndexes.once.of_map
      rightIndexes.once.of_map).mpr
    rintro ⟨id, entry⟩
    rw [leftIndexes.mem_iff, rightIndexes.mem_iff]
  -- Order and stability together are antisymmetric: ties are broken by the walk.
  refine List.Perm.eq_of_pairwise ?_
    (leftIndexes.sorted.and leftIndexes.stable)
    (rightIndexes.sorted.and rightIndexes.stable) same
  rintro first second - - ⟨forwards, walkedBefore⟩ ⟨backwards, walkedAfter⟩
  have tied := String.le_antisymm forwards backwards
  exact (not_sublist_pair_swap linked.nodup_walk (walkedBefore tied)
    (walkedAfter tied.symm)).elim

/-- If nothing is wrong with any node, the sorted entries of the walk are the index. -/
theorem indexes_mergeSort_pairsAt
    {tree : Tree}
    (linked : tree.Linked)
    (settled : ∀ id error, ¬ Offends tree id error) :
    Indexes tree ((pairsAt tree tree.walk).mergeSort inOrder) := by
  have permuted := List.mergeSort_perm (pairsAt tree tree.walk) inOrder
  have walked := map_fst_pairsAt_sublist tree tree.walk
  have distinct : ((pairsAt tree tree.walk).map Prod.fst).Nodup :=
    linked.nodup_walk.sublist walked
  constructor
  · intro pair member
    exact (mem_pairsAt.mp (List.mem_mergeSort.mp member)).2
  · exact (permuted.map Prod.fst).nodup_iff.mpr distinct
  · intro id symbol found listed
    rcases (exists_lists_iff linked (settled id)).mpr ⟨symbol, found, listed⟩ with
      ⟨entry, lists⟩
    have inside : id ∈ tree.walk := linked.mem_walk.mpr (Tree.lt_size_of_symbol found)
    exact List.mem_map_of_mem
      (List.mem_mergeSort.mpr (mem_pairsAt.mpr ⟨inside, lists⟩))
  · refine (List.pairwise_mergeSort inOrder_trans inOrder_total _).imp ?_
    intro first second ordered
    exact of_decide_eq_true ordered
  · refine (pairwise_mergeSort_stable inOrder_trans inOrder_total distinct.of_map).imp ?_
    intro first second stands tied
    have exchangeable : inOrder second first = true :=
      decide_eq_true (tied ▸ String.le_refl _)
    exact ((stands exchangeable).map Prod.fst).trans walked

/-- If nothing is wrong with any node, collecting gives the index of the tree. -/
theorem collect_eq_ok_iff
    {tree : Tree}
    (linked : tree.Linked)
    {entries : List Entry} :
    collect tree = .ok entries ↔
      (∀ id error, ¬ Offends tree id error) ∧
        ∃ pairs, Indexes tree pairs ∧ pairs.map Prod.snd = entries := by
  have everywhere :
      (∀ id ∈ tree.walk, ∀ error, ¬ Offends tree id error) ↔
        ∀ id error, ¬ Offends tree id error := by
    constructor
    · intro walked id error offends
      exact walked id (linked.mem_walk.mpr offends.inside) error offends
    · exact fun settled id _ => settled id
  simp only [collect_eq linked, bind_eq_ok_iff, entriesAt_eq_ok_iff linked, everywhere]
  constructor
  · rintro ⟨_, ⟨settled, rfl⟩, ⟨⟩⟩
    exact ⟨settled, _, indexes_mergeSort_pairsAt linked settled,
      (sortEntries_map_snd _).symm⟩
  · rintro ⟨settled, pairs, indexes, rfl⟩
    refine ⟨_, ⟨settled, rfl⟩, ?_⟩
    rw [sortEntries_map_snd,
      indexes.unique linked (indexes_mergeSort_pairsAt linked settled)]
    rfl

/-- Every entry of the index is of a listed kind. -/
theorem disposition_of_mem_collect
    {tree : Tree}
    (linked : tree.Linked)
    {entries : List Entry}
    (collected : collect tree = .ok entries)
    {entry : Entry}
    (member : entry ∈ entries) :
    entry.kind.disposition = .index := by
  rcases (collect_eq_ok_iff linked).mp collected with ⟨-, pairs, indexes, rfl⟩
  rcases List.mem_map.mp member with ⟨pair, inPairs, rfl⟩
  exact (indexes.lists pair inPairs).listed

/--
Collecting fails with what is wrong with the first node of the walk with
which something is wrong, and otherwise it gives the index of the tree.
-/
theorem collect_eq_iff
    {tree : Tree}
    (built : tree.Built) :
    (∀ error, collect tree = .error error ↔ FirstOffence tree error) ∧
      ∀ entries, collect tree = .ok entries ↔
        (∀ id error, ¬ Offends tree id error) ∧
          ∃ pairs, Indexes tree pairs ∧ pairs.map Prod.snd = entries :=
  ⟨fun _ => collect_eq_error_iff built.linked, fun _ => collect_eq_ok_iff built.linked⟩

/-- A project whose symbols are not declared in the order in which they are walked. -/
def tangled : Tree :=
  let planted := Tree.withRoot ⟨"p", 1, none, []⟩
  let nested := (planted.addChild 0 ⟨"m", 2, none, []⟩).1
  let typed := (nested.addChild 0 ⟨"b", 128, none, []⟩).1
  let doubled := (typed.addChild 1 ⟨"B", 64, none, []⟩).1
  (doubled.addChild 1 ⟨"a", 32, none, []⟩).1

theorem built_tangled : tangled.Built :=
  .addChild (.addChild (.addChild (.addChild (.withRoot _) (by decide) _) (by decide) _)
    (by decide) _) (by decide) _

/-- The project with a parameter below the function, and a symbol of no kind behind it. -/
def misplaced : Tree :=
  ((tangled.addChild 0 ⟨"z", 3, none, []⟩).1.addChild 3 ⟨"x", 32768, none, []⟩).1

theorem built_misplaced : misplaced.Built :=
  .addChild (.addChild built_tangled (by decide) _) (by decide) _

/-- The tied names stand in the order of the walk, and the parameter is walked before the other. -/
theorem collect_eq_iff_tangled :
    (∃ pairs, Indexes tangled pairs ∧
      pairs.map Prod.snd =
        [⟨"a", .variableBinding, "m"⟩, ⟨"B", .function, "m"⟩, ⟨"b", .classType, "p"⟩]) ∧
      FirstOffence misplaced (.unhandledKind "x" .parameter) := by
  constructor
  · exact (((collect_eq_iff built_tangled).2 _).mp (by cbv)).2
  · exact ((collect_eq_iff built_misplaced).1 _).mp (by decide +kernel)

end Index

end Concordance
