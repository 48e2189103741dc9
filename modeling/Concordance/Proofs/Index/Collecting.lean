import Concordance.Index.Entry
import Concordance.Proofs.Failure
import Concordance.Proofs.Tree.Layout

/-!
# What the index is made of

The index reads a tree's links and the names and kind codes of its symbols,
and nothing else: trees that agree in these have the same index.  It has one
entry for every symbol of a listed kind, wherever the symbol stands.
-/

namespace Concordance

/-! ### Symbols of an outline -/

theorem Outline.symbolsOf_map
    {outlineOf : NodeId → Outline}
    {idsOf : NodeId → List NodeId}
    {symbol? : NodeId → Option Symbol}
    {ids : List NodeId}
    (each : ∀ id ∈ ids, (outlineOf id).symbols = (idsOf id).filterMap symbol?) :
    symbolsOf (ids.map outlineOf) = (ids.flatMap idsOf).filterMap symbol? := by
  induction ids with
  | nil => rfl
  | cons id ids induction =>
      rcases List.forall_mem_cons.mp each with ⟨first, others⟩
      rw [List.map_cons, symbolsOf, first, induction others, List.flatMap_cons,
        List.filterMap_append]

/-- The symbols of the outline below a node are those of its pre-order. -/
theorem Tree.Linked.symbols_outlineAt
    {tree : Tree}
    (linked : tree.Linked)
    {id : NodeId}
    (inside : id < tree.size) :
    (tree.outlineAt id).symbols = (tree.preorderAt id).filterMap tree.symbol? := by
  induction id using linked.inductionFromBelow with
  | step id induction =>
      rcases exists_node inside with ⟨node, found⟩
      have children := childrenOf_eq found
      have symbol : tree.symbol? id = some node.symbol := by
        rw [symbol?, found]
        rfl
      rw [linked.outlineAt_eq found, linked.preorderAt_eq, ← children,
        Outline.symbols, List.filterMap_cons, symbol]
      congr 1
      apply Outline.symbolsOf_map
      intro child member
      exact induction child member (linked.forward member).2

theorem Tree.filterMap_symbol?_range (tree : Tree) :
    (List.range tree.size).filterMap tree.symbol? =
      tree.nodes.toList.map Node.symbol := by
  have each :
      (List.range tree.size).map tree.symbol? =
        tree.nodes.toList.map (some ∘ Node.symbol) := by
    apply List.ext_getElem
    · simp [size]
    · intro id _ inside
      have inside : id < tree.nodes.size := by simpa using inside
      simp [symbol?, node?, inside]
  calc
    (List.range tree.size).filterMap tree.symbol? =
        ((List.range tree.size).map tree.symbol?).filterMap id := by
      rw [List.filterMap_map]
      rfl
    _ = (tree.nodes.toList.map (some ∘ Node.symbol)).filterMap id := by rw [each]
    _ = tree.nodes.toList.map Node.symbol := by
      rw [List.filterMap_map]
      exact congrFun List.filterMap_eq_map _

namespace Index

/-! ### Trees with the same index -/

/-- Whether two trees agree in their links and in all names and kind codes. -/
structure SameNames (left right : Tree) : Prop where
  links : left.SameLinks right
  names : ∀ id,
    (left.symbol? id).map (fun symbol => (symbol.name, symbol.kindCode)) =
      (right.symbol? id).map fun symbol => (symbol.name, symbol.kindCode)

theorem SameNames.refl (tree : Tree) : SameNames tree tree :=
  ⟨.refl tree, fun _ => rfl⟩

theorem SameNames.trans
    {first second third : Tree}
    (left : SameNames first second)
    (right : SameNames second third) :
    SameNames first third :=
  ⟨left.links.trans right.links, fun id => (left.names id).trans (right.names id)⟩

theorem symbolEntry?_congr
    {left right : Symbol}
    (name : left.name = right.name)
    (kindCode : left.kindCode = right.kindCode)
    (parentName : Option String) :
    symbolEntry? parentName left = symbolEntry? parentName right := by
  unfold symbolEntry?
  rw [name, kindCode]

theorem outlinesEntries_map_congr
    {parentName : Option String}
    {left right : NodeId → Outline}
    {ids : List NodeId}
    (each : ∀ id ∈ ids,
      outlineEntries parentName (left id) = outlineEntries parentName (right id)) :
    outlinesEntries parentName (ids.map left) =
      outlinesEntries parentName (ids.map right) := by
  induction ids with
  | nil => rfl
  | cons id ids induction =>
      rcases List.forall_mem_cons.mp each with ⟨first, others⟩
      rw [List.map_cons, List.map_cons, outlinesEntries, outlinesEntries, first,
        induction others]

theorem SameNames.outlineEntries_outlineAt
    {left right : Tree}
    (same : SameNames left right)
    (linked : right.Linked)
    {id : NodeId}
    (inside : id < right.size)
    (parentName : Option String) :
    outlineEntries parentName (left.outlineAt id) =
      outlineEntries parentName (right.outlineAt id) := by
  induction id using linked.inductionFromBelow generalizing parentName with
  | step id induction =>
      have leftLinked := same.links.linked linked
      rcases Tree.exists_node inside with ⟨rightNode, rightFound⟩
      rcases Tree.exists_node (same.links.size ▸ inside) with ⟨leftNode, leftFound⟩
      have names := same.names id
      rw [Tree.symbol?, Tree.symbol?, leftFound, rightFound] at names
      rcases Prod.mk.inj (Option.some.inj names) with ⟨name, kindCode⟩
      have children := same.links.children id
      rw [Tree.childrenOf_eq leftFound, Tree.childrenOf_eq rightFound] at children
      have each (child : NodeId) (member : child ∈ rightNode.children) :
          outlineEntries (some rightNode.symbol.name) (left.outlineAt child) =
            outlineEntries (some rightNode.symbol.name) (right.outlineAt child) := by
        have listed : child ∈ right.childrenOf id := by
          rw [Tree.childrenOf_eq rightFound]
          exact member
        exact induction child listed (linked.forward listed).2 _
      rw [leftLinked.outlineAt_eq leftFound, linked.outlineAt_eq rightFound,
        outlineEntries, outlineEntries, symbolEntry?_congr name kindCode, name,
        children, outlinesEntries_map_congr each]

/-- Trees that agree in links, names and kind codes have the same index. -/
theorem SameNames.collect_eq
    {left right : Tree}
    (same : SameNames left right)
    (linked : right.Linked) :
    collect left = collect right := by
  rw [collect, collect, Tree.outline, Tree.outline,
    same.outlineEntries_outlineAt linked linked.root_inside]

/-! ### How many entries there are -/

end Index

/-- Whether the index lists a symbol. -/
def Symbol.listed (symbol : Symbol) : Bool :=
  match Kind.ofCode? symbol.kindCode with
  | some kind => kind.disposition == .index
  | none => false

namespace Index

theorem length_symbolEntry?
    {parentName : Option String}
    {symbol : Symbol}
    {entry : Option Entry}
    (made : symbolEntry? parentName symbol = .ok entry) :
    entry.toList.length = if symbol.listed then 1 else 0 := by
  unfold symbolEntry? at made
  rw [Symbol.listed]
  split at made
  · cases made
  · rename_i kind found
    rw [found]
    split at made <;> cases made <;> simp_all

mutual

theorem length_outlineEntries :
    ∀ (outline : Outline) (parentName : Option String) (entries : List Entry),
      outlineEntries parentName outline = .ok entries →
      entries.length = outline.symbols.countP Symbol.listed
  | .node symbol children, parentName, entries, made => by
      simp only [outlineEntries, bind_eq_ok_iff] at made
      rcases made with ⟨entry, here, below, others, ⟨⟩⟩
      rw [List.length_append, length_symbolEntry? here,
        length_outlinesEntries children _ below others, Outline.symbols,
        List.countP_cons, Nat.add_comm]

theorem length_outlinesEntries :
    ∀ (outlines : List Outline) (parentName : Option String) (entries : List Entry),
      outlinesEntries parentName outlines = .ok entries →
      entries.length = (Outline.symbolsOf outlines).countP Symbol.listed
  | [], _, _, made => by
      cases made
      rfl
  | outline :: outlines, parentName, entries, made => by
      simp only [outlinesEntries, bind_eq_ok_iff] at made
      rcases made with ⟨first, here, rest, others, ⟨⟩⟩
      rw [List.length_append, length_outlineEntries outline _ first here,
        length_outlinesEntries outlines _ rest others, Outline.symbolsOf,
        List.countP_append]

end

theorem length_sortEntries (entries : List Entry) :
    (sortEntries entries).length = entries.length := by
  simp [sortEntries]

/-- The index has as many entries as the tree has listed symbols. -/
theorem length_collect
    {tree : Tree}
    (linked : tree.Linked)
    {entries : List Entry}
    (collected : collect tree = .ok entries) :
    entries.length = tree.nodes.toList.countP fun node => node.symbol.listed := by
  simp only [collect, bind_eq_ok_iff] at collected
  rcases collected with ⟨unsorted, made, ⟨⟩⟩
  have symbols := linked.symbols_outlineAt linked.root_inside
  have permuted := (linked.preorder_perm.filterMap tree.symbol?)
  rw [length_sortEntries, length_outlineEntries _ _ _ made, Tree.outline, symbols,
    permuted.countP_eq, tree.filterMap_symbol?_range, List.countP_map]
  rfl

end Index

end Concordance
