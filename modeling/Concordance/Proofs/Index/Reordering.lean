import Concordance.Proofs.Index.Refusal

/-!
# Reordering a project

The children of a node stand in the order in which they were declared, and
which numbers the nodes have depends on it too.  `Reordered` relates two trees
that differ in nothing else that the index could see: a label for every node
of the one tells which node of the other stands for it.

The walk of a reordered tree visits the same nodes in another order
(`Reordered.walk_perm`), and the collector makes of each what it makes of the
node for which it stands (`entryAt_label`).  So the collector succeeds on both
trees or on neither, though it may meet another error first; and as entries
are sorted, only those whose upper-case names agree can change places.
-/

namespace Concordance

/--
Whether the second tree is the first one with the children of its nodes
reordered, where the label of a node is the node of the second tree that
stands for it.
-/
structure Tree.Reordered (tree other : Tree) (label : NodeId → NodeId) : Prop where
  linked : other.Linked
  label_root : label root = root
  names : ∀ id < tree.size,
    (other.symbol? (label id)).map (fun symbol => (symbol.name, symbol.kindCode)) =
      (tree.symbol? id).map fun symbol => (symbol.name, symbol.kindCode)
  children : ∀ id < tree.size,
    (other.childrenOf (label id)).Perm ((tree.childrenOf id).map label)

/-- Permuting the children of nodes and leaving all else as it is reorders a tree. -/
theorem Tree.Linked.reordered_id
    {tree other : Tree}
    (linked : tree.Linked)
    (size : other.size = tree.size)
    (symbols : ∀ id, other.symbol? id = tree.symbol? id)
    (parents : ∀ id, other.parent? id = tree.parent? id)
    (children : ∀ id, (other.childrenOf id).Perm (tree.childrenOf id)) :
    tree.Reordered other id where
  linked := {
    root_inside := size ▸ linked.root_inside
    root_parent := (parents root).trans linked.root_parent
    exists_parent := fun notRoot inside => by
      rw [parents]
      exact linked.exists_parent notRoot (size ▸ inside)
    parent_lt := fun link => linked.parent_lt (parents _ ▸ link)
    mem_children := by
      intro parent child
      rw [(children parent).mem_iff, linked.mem_children, parents]
    children_distinct := fun id =>
      (children id).nodup_iff.mpr (linked.children_distinct id) }
  label_root := rfl
  names := fun node _ => congrArg _ (symbols node)
  children := fun node _ => (List.map_id (tree.childrenOf node)).symm ▸ children node

section

variable {First Second Error : Type}

/-- What is done with every element succeeds in any order, with the same results. -/
theorem exists_mapM_of_perm
    {step : First → Except Error Second}
    {elements others : List First}
    (permuted : elements.Perm others)
    {results : List Second}
    (done : elements.mapM step = .ok results) :
    ∃ otherResults, others.mapM step = .ok otherResults ∧ results.Perm otherResults := by
  have related : Relation.Comp List.Perm
      (List.Forall₂ fun element result => step element = .ok result) others results :=
    ⟨elements, permuted.symm, mapM_eq_ok_iff.mp done⟩
  rw [← List.forall₂_comp_perm_eq_perm_comp_forall₂] at related
  rcases related with ⟨otherResults, each, same⟩
  exact ⟨otherResults, mapM_eq_ok_iff.mpr each, same.symm⟩

end

namespace Tree.Reordered

variable {tree other : Tree} {label : NodeId → NodeId}

/-! ### The walk -/

theorem preorderAt_perm
    (reordered : tree.Reordered other label)
    (linked : tree.Linked)
    {id : NodeId}
    (inside : id < tree.size) :
    (other.preorderAt (label id)).Perm ((tree.preorderAt id).map label) := by
  induction id using linked.inductionFromBelow with
  | step id induction =>
      rw [reordered.linked.preorderAt_eq, linked.preorderAt_eq, List.map_cons,
        List.map_flatMap]
      refine List.Perm.cons _ ?_
      calc
        ((other.childrenOf (label id)).flatMap other.preorderAt).Perm
            (((tree.childrenOf id).map label).flatMap other.preorderAt) :=
          (reordered.children id inside).flatMap_right _
        _ = (tree.childrenOf id).flatMap fun child => other.preorderAt (label child) :=
          List.flatMap_map label other.preorderAt _
        List.Perm _ ((tree.childrenOf id).flatMap fun child =>
            (tree.preorderAt child).map label) :=
          List.Perm.flatMap_left _ fun child member =>
            induction child member (linked.forward member).2

/-- The walk visits the nodes that stand for those of the first tree, in another order. -/
theorem walk_perm
    (reordered : tree.Reordered other label)
    (linked : tree.Linked) :
    other.walk.Perm (tree.walk.map label) := by
  have whole := reordered.preorderAt_perm linked linked.root_inside
  rwa [reordered.label_root, ← reordered.linked.walk_eq, ← linked.walk_eq] at whole

/-! ### The nodes -/

theorem parent?_label
    (reordered : tree.Reordered other label)
    (linked : tree.Linked)
    {id parent : NodeId}
    (link : tree.parent? id = some parent) :
    other.parent? (label id) = some (label parent) := by
  have member := List.mem_map_of_mem (f := label) (linked.mem_children.mpr link)
  have inside : parent < tree.size :=
    Nat.lt_trans (linked.parent_lt link) (Tree.lt_size_of_parent link)
  exact reordered.linked.mem_children.mp
    ((reordered.children parent inside).mem_iff.mpr member)

theorem parentName?_label
    (reordered : tree.Reordered other label)
    (linked : tree.Linked)
    {id : NodeId}
    (inside : id < tree.size) :
    other.parentName? (label id) = tree.parentName? id := by
  rw [parentName?_eq, parentName?_eq]
  by_cases atRoot : id = root
  · rw [atRoot, reordered.label_root, reordered.linked.root_parent, linked.root_parent,
      Option.bind_none, Option.bind_none]
  · rcases linked.exists_parent atRoot inside with ⟨parent, link⟩
    have same := congrArg (Option.map Prod.fst)
      (reordered.names parent (Nat.lt_trans (linked.parent_lt link) inside))
    simp only [Option.map_map] at same
    rw [reordered.parent?_label linked link, link]
    exact same

end Tree.Reordered

namespace Index

/-- The collector makes of a node what it makes of the node for which it stands. -/
theorem entryAt_label
    {tree other : Tree}
    {label : NodeId → NodeId}
    (reordered : tree.Reordered other label)
    (linked : tree.Linked)
    {id : NodeId}
    (inside : id < tree.size) :
    entryAt other (label id) = entryAt tree id := by
  have same := reordered.names id inside
  rw [entryAt, entryAt, reordered.parentName?_label linked inside]
  cases found : tree.symbol? id with
  | none =>
      rw [found, Option.map_none, Option.map_eq_none_iff] at same
      rw [same]
  | some symbol =>
      rw [found, Option.map_some, Option.map_eq_some_iff] at same
      rcases same with ⟨shown, here, alike⟩
      rw [here]
      exact symbolEntry?_congr (congrArg Prod.fst alike) (congrArg Prod.snd alike) _

/-! ### The entries -/

theorem exists_entriesAt_of_perm
    {tree : Tree}
    {ids others : List NodeId}
    (permuted : ids.Perm others)
    {entries : List Entry}
    (made : entriesAt tree ids = .ok entries) :
    ∃ otherEntries, entriesAt tree others = .ok otherEntries ∧ entries.Perm otherEntries := by
  rcases bind_eq_ok_iff.mp made with ⟨found, each, ⟨⟩⟩
  rcases exists_mapM_of_perm permuted each with ⟨otherFound, otherEach, same⟩
  exact ⟨otherFound.reduceOption, bind_eq_ok_iff.mpr ⟨otherFound, otherEach, rfl⟩,
    same.filterMap id⟩

theorem entriesAt_map_label
    {tree other : Tree}
    {label : NodeId → NodeId}
    (reordered : tree.Reordered other label)
    (linked : tree.Linked)
    {ids : List NodeId}
    (inside : ∀ id ∈ ids, id < tree.size) :
    entriesAt other (ids.map label) = entriesAt tree ids := by
  induction ids with
  | nil => rfl
  | cons id ids induction =>
      rcases List.forall_mem_cons.mp inside with ⟨first, others⟩
      rw [List.map_cons, entriesAt_cons, entriesAt_cons, induction others,
        entryAt_label reordered linked first]

/-! ### Sorting -/

/-- Computing the keys once makes no difference. -/
theorem sortEntries_eq_mergeSort (entries : List Entry) :
    sortEntries entries = entries.mergeSort fun left right => left.sortKey ≤ right.sortKey := by
  have keyed := List.map_mergeSort (f := fun entry : Entry => (entry.sortKey, entry))
    (r := fun left right => left.sortKey ≤ right.sortKey)
    (s := fun left right => left.1 ≤ right.1) (l := entries) fun _ _ _ _ => rfl
  simp only [sortEntries]
  rw [← keyed, List.map_map]
  exact List.map_id _

theorem sortEntries_perm (entries : List Entry) : (sortEntries entries).Perm entries := by
  rw [sortEntries_eq_mergeSort]
  exact List.mergeSort_perm entries _

theorem pairwise_sortEntries (entries : List Entry) :
    (sortEntries entries).Pairwise fun first second => first.sortKey ≤ second.sortKey := by
  rw [sortEntries_eq_mergeSort]
  refine (List.pairwise_mergeSort ?_ ?_ entries).imp of_decide_eq_true
  · intro first second third left right
    exact decide_eq_true (String.le_trans (of_decide_eq_true left) (of_decide_eq_true right))
  · intro first second
    rw [Bool.or_eq_true]
    exact (String.le_total _ _).imp decide_eq_true decide_eq_true

/-- The same entries in another order give the same sequence of upper-case names. -/
theorem map_sortKey_sortEntries_of_perm
    {entries others : List Entry}
    (permuted : entries.Perm others) :
    (sortEntries entries).map Entry.sortKey = (sortEntries others).map Entry.sortKey := by
  have same := ((sortEntries_perm entries).trans
    (permuted.trans (sortEntries_perm others).symm)).map Entry.sortKey
  refine same.eq_of_pairwise (fun first second _ _ => String.le_antisymm) ?_ ?_
  · exact List.pairwise_map.mpr (pairwise_sortEntries entries)
  · exact List.pairwise_map.mpr (pairwise_sortEntries others)

/-- Without ties the order in which the entries came is lost. -/
theorem sortEntries_eq_of_perm
    {entries others : List Entry}
    (permuted : entries.Perm others)
    (distinct : (entries.map Entry.sortKey).Nodup) :
    sortEntries entries = sortEntries others := by
  have same := (sortEntries_perm entries).trans
    (permuted.trans (sortEntries_perm others).symm)
  refine same.eq_of_pairwise ?_ (pairwise_sortEntries entries) (pairwise_sortEntries others)
  intro first second inEntries inOthers forwards backwards
  have firstInside := (sortEntries_perm entries).mem_iff.mp inEntries
  have secondInside := permuted.mem_iff.mpr ((sortEntries_perm others).mem_iff.mp inOthers)
  exact List.inj_on_of_nodup_map distinct firstInside secondInside
    (String.le_antisymm forwards backwards)

/-! ### The index -/

theorem collect_eq_ok_iff_sortEntries
    {tree : Tree}
    (linked : tree.Linked)
    {entries : List Entry} :
    collect tree = .ok entries ↔
      ∃ made, entriesAt tree tree.walk = .ok made ∧ sortEntries made = entries := by
  rw [collect_eq linked, bind_eq_ok_iff]
  exact exists_congr fun made => and_congr_right fun _ => ⟨Except.ok.inj, congrArg _⟩

section

variable {tree other : Tree} {label : NodeId → NodeId}

/-- The walks of a tree and of a reordered one give the same entries, in different orders. -/
theorem exists_entriesAt_walk
    (reordered : tree.Reordered other label)
    (linked : tree.Linked) :
    (∀ entries, entriesAt tree tree.walk = .ok entries →
      ∃ others, entriesAt other other.walk = .ok others ∧ entries.Perm others) ∧
      ∀ others, entriesAt other other.walk = .ok others →
        ∃ entries, entriesAt tree tree.walk = .ok entries ∧ others.Perm entries := by
  have permuted := reordered.walk_perm linked
  rw [← entriesAt_map_label reordered linked fun _ => linked.mem_walk.mp]
  exact ⟨fun _ => exists_entriesAt_of_perm permuted.symm,
    fun _ => exists_entriesAt_of_perm permuted⟩

theorem exists_collect_iff_of_reordered
    (reordered : tree.Reordered other label)
    (linked : tree.Linked) :
    (∃ entries, collect tree = .ok entries) ↔ ∃ entries, collect other = .ok entries := by
  rcases exists_entriesAt_walk reordered linked with ⟨forwards, backwards⟩
  simp only [collect_eq_ok_iff_sortEntries linked,
    collect_eq_ok_iff_sortEntries reordered.linked]
  constructor
  · rintro ⟨_, made, each, -⟩
    rcases forwards made each with ⟨others, otherEach, -⟩
    exact ⟨_, others, otherEach, rfl⟩
  · rintro ⟨_, made, each, -⟩
    rcases backwards made each with ⟨others, otherEach, -⟩
    exact ⟨_, others, otherEach, rfl⟩

/--
Reordering the children of nodes leaves the index as it is, up to the order of
entries whose upper-case names agree: it is collected for both trees or for
neither, it has the same entries and the same sequence of upper-case names,
and if no two of these agree, it is the same and so is the page, in every
layout and under every title.
-/
theorem collect_of_reordered
    (built : tree.Built)
    (reordered : tree.Reordered other label) :
    ((∃ entries, collect tree = .ok entries) ↔ ∃ others, collect other = .ok others) ∧
      ∀ entries others, collect tree = .ok entries → collect other = .ok others →
        entries.Perm others ∧
          entries.map Entry.sortKey = others.map Entry.sortKey ∧
          ((entries.map Entry.sortKey).Nodup →
            entries = others ∧
              ∀ renderer : Renderer, ∃ fragment,
                renderer.page entries = .ok fragment ∧
                  renderer.page others = .ok fragment) := by
  have linked := built.linked
  refine ⟨exists_collect_iff_of_reordered reordered linked, ?_⟩
  intro entries others collected otherCollected
  rcases (collect_eq_ok_iff_sortEntries linked).mp collected with ⟨made, each, rfl⟩
  rcases (collect_eq_ok_iff_sortEntries reordered.linked).mp otherCollected with
    ⟨otherMade, otherEach, rfl⟩
  -- The entries that the other walk gives are the ones that it gives for the first.
  rcases (exists_entriesAt_walk reordered linked).1 made each with ⟨found, foundEach, permuted⟩
  rw [otherEach] at foundEach
  cases foundEach
  have sorted := sortEntries_perm made
  refine ⟨sorted.trans (permuted.trans (sortEntries_perm otherMade).symm),
    map_sortKey_sortEntries_of_perm permuted, fun distinct => ?_⟩
  have same := sortEntries_eq_of_perm permuted
    ((sorted.map Entry.sortKey).nodup_iff.mp distinct)
  refine ⟨same, fun renderer => ?_⟩
  rcases exists_page_of_collect linked collected renderer with ⟨fragment, shown⟩
  exact ⟨fragment, shown, same ▸ shown⟩

end

/-- A module that is declared before a class, and a function before a variable. -/
def moduleFirst : Tree :=
  let planted := Tree.withRoot ⟨"p", 1, none, []⟩
  let nested := (planted.addChild 0 ⟨"m", 2, none, []⟩).1
  let typed := (nested.addChild 0 ⟨"C", 128, none, []⟩).1
  let called := (typed.addChild 1 ⟨"f", 64, none, []⟩).1
  (called.addChild 1 ⟨"a", 32, none, []⟩).1

/-- The same project, with the class declared first and the variable before the function. -/
def classFirst : Tree :=
  let planted := Tree.withRoot ⟨"p", 1, none, []⟩
  let typed := (planted.addChild 0 ⟨"C", 128, none, []⟩).1
  let nested := (typed.addChild 0 ⟨"m", 2, none, []⟩).1
  let bound := (nested.addChild 2 ⟨"a", 32, none, []⟩).1
  (bound.addChild 2 ⟨"f", 64, none, []⟩).1

/-- The node of the second project that stands for one of the first. -/
def movedTo : NodeId → NodeId
  | 1 => 2
  | 2 => 1
  | 3 => 4
  | 4 => 3
  | id => id

theorem built_moduleFirst : moduleFirst.Built :=
  .addChild (.addChild (.addChild (.addChild (.withRoot _) (by decide) _) (by decide) _)
    (by decide) _) (by decide) _

theorem built_classFirst : classFirst.Built :=
  .addChild (.addChild (.addChild (.addChild (.withRoot _) (by decide) _) (by decide) _)
    (by decide) _) (by decide) _

theorem reordered_classFirst : moduleFirst.Reordered classFirst movedTo where
  linked := built_classFirst.linked
  label_root := rfl
  names := by decide
  children := by decide

/-- The walks differ, the indexes do not, and so the pages do not either. -/
theorem collect_of_reordered_classFirst :
    moduleFirst.walk.map movedTo ≠ classFirst.walk ∧
      ∃ entries,
        collect moduleFirst = .ok entries ∧ collect classFirst = .ok entries ∧
        entries.map Entry.name = ["a", "C", "f"] ∧
        ∀ renderer : Renderer, ∃ fragment, renderer.page entries = .ok fragment := by
  rcases collect_of_reordered built_moduleFirst reordered_classFirst with ⟨both, agree⟩
  have collected : collect moduleFirst =
      .ok [⟨"a", .variableBinding, "m"⟩, ⟨"C", .classType, "p"⟩, ⟨"f", .function, "m"⟩] := by
    cbv
  rcases both.mp ⟨_, collected⟩ with ⟨others, otherCollected⟩
  rcases agree _ _ collected otherCollected with ⟨-, -, untied⟩
  rcases untied (by decide +kernel) with ⟨rfl, shown⟩
  refine ⟨by decide +kernel, _, collected, otherCollected, rfl, fun renderer => ?_⟩
  rcases shown renderer with ⟨fragment, here, -⟩
  exact ⟨fragment, here⟩

end Index

end Concordance
