import Concordance.Proofs.Dump.RoundTrip
import Concordance.Proofs.Index.Splicing

/-!
# Injecting into a tree that was written and read

A tree that is written as a dump and read again comes back renumbered by its
walk.  The index does not notice: the outline is the same, the walk meets the
same symbols, and so the same sites are found in the same order, each under
its new number.  A splice and a renumbering can change places, hence so can an
injection and a renumbering, and both ways lead to the same dump.
-/

namespace Concordance

namespace Tree

variable {tree : Tree}

/-! ### What a renumbered tree has in common with the tree -/

theorem eq_of_node?_eq
    {left right : Tree}
    (nodes : ∀ id, left.node? id = right.node? id)
    (readme : left.readme = right.readme) :
    left = right := by
  rcases left with ⟨leftNodes, leftReadme⟩
  rcases right with ⟨rightNodes, rightReadme⟩
  have same : leftNodes = rightNodes := Array.ext_getElem? nodes
  rw [same]
  exact congrArg (Tree.mk rightNodes) readme

theorem Linked.outline_renumbered (linked : tree.Linked) :
    tree.renumbered.outline = tree.outline := by
  rw [← linked.ofOutline_outline, outline_ofOutline]

theorem Linked.walk_renumbered (linked : tree.Linked) :
    tree.renumbered.walk = tree.walk.map tree.place := by
  have counted := walk_ofOutline tree.outline tree.readme
  rw [linked.ofOutline_outline, linked.size_renumbered] at counted
  rw [counted, linked.map_place_walk, linked.length_walk, List.range_eq_range']

theorem Linked.symbol?_renumbered
    (linked : tree.Linked)
    {id : NodeId}
    (inside : id < tree.size) :
    tree.renumbered.symbol? (tree.place id) = tree.symbol? id := by
  rw [symbol?, symbol?, linked.node?_renumbered inside, Option.map_map]
  rfl

theorem Linked.place_inj
    (linked : tree.Linked)
    {left right : NodeId}
    (leftInside : left < tree.size) :
    tree.place left = tree.place right ↔ left = right :=
  List.idxOf_inj (linked.mem_walk.mpr leftInside)

theorem SameLinks.place_eq
    {left right : Tree}
    (same : left.SameLinks right) :
    left.place = right.place := by
  funext id
  rw [place, place, same.walk_eq]

/-- A tree and its renumbering have the same dump. -/
theorem Linked.write_renumbered (linked : tree.Linked) :
    Dump.write tree.renumbered = Dump.write tree := by
  rw [Dump.write, Dump.write, linked.outline_renumbered]
  rfl

end Tree

namespace Index

/-- The site with its node at a new position. -/
def Site.relabel (label : NodeId → NodeId) : Site → Site
  | .readme => .readme
  | .comment id => .comment (label id)

/-- The report with every site at its new position. -/
def Report.relabel (label : NodeId → NodeId) (report : Report) : Report where
  entries := report.entries
  injected := report.injected.map (Site.relabel label)
  skipped := report.skipped.map (Site.relabel label)

/-- Whether the node of a site, if it is one of a comment, is in the tree. -/
def Site.Inside (tree : Tree) : Site → Prop
  | .readme => True
  | .comment id => id < tree.size

theorem Site.relabel_eq_comment_iff
    {tree : Tree}
    (linked : tree.Linked)
    {site : Site}
    (within : site.Inside tree)
    {id : NodeId} :
    site.relabel tree.place = .comment (tree.place id) ↔ site = .comment id := by
  cases site with
  | readme => exact ⟨nofun, nofun⟩
  | comment other =>
      rw [relabel, Site.comment.injEq, Site.comment.injEq, linked.place_inj within]

theorem collect_renumbered {tree : Tree} (linked : tree.Linked) :
    collect tree.renumbered = collect tree := by
  rw [collect, collect, linked.outline_renumbered]

namespace Injector

variable {injector : Injector} {tree : Tree}

/-! ### Sites -/

theorem inside_of_mem_sites
    {site : Site}
    (found : site ∈ injector.sites tree) :
    site.Inside tree := by
  cases site with
  | readme => trivial
  | comment id =>
      rcases comment_mem_sites found with ⟨node, _, here, -⟩
      exact Tree.lt_size_of_node here

/-- The renumbered tree has the same sites in the same order, each at its place. -/
theorem sites_renumbered (linked : tree.Linked) (injector : Injector) :
    injector.sites tree.renumbered =
      (injector.sites tree).map (Site.relabel tree.place) := by
  have marks : ∀ id ∈ tree.walk,
      (injector.marksNode tree.renumbered ∘ tree.place) id =
        injector.marksNode tree id := by
    intro id member
    rw [Function.comp_apply, marksNode, marksNode,
      linked.symbol?_renumbered (linked.mem_walk.mp member)]
  rw [sites, sites, linked.walk_renumbered, List.filter_map,
    List.filter_congr marks, List.map_append, List.map_map, List.map_map]
  congr 1
  change (if injector.marksReadme tree then [Site.readme] else []) = _
  cases injector.marksReadme tree <;> rfl

theorem divide_map (policy : MarkerPolicy) (move : Site → Site) (sites : List Site) :
    divide policy (sites.map move) =
      ((divide policy sites).1.map move, (divide policy sites).2.map move) := by
  cases policy with
  | firstOnly => rw [divide, divide, List.map_take, List.map_drop]
  | broadcast | reject => rfl

/-! ### Splices -/

/-- Splicing and then renumbering is renumbering and then splicing at the new place. -/
theorem renumbered_splice
    (linked : tree.Linked)
    (fragment : String)
    {site : Site}
    (within : site.Inside tree) :
    (injector.splice fragment tree site).renumbered =
      injector.splice fragment tree.renumbered (site.relabel tree.place) := by
  have links := (sameNames_splice injector fragment tree site).links
  apply Tree.eq_of_node?_eq
  · intro index
    rw [(links.linked linked).node?_renumbered_index, links.walk_eq, links.place_eq,
      node?_splice, linked.node?_renumbered_index]
    cases met : tree.walk[index]? with
    | none => rfl
    | some id =>
        have inside : id < tree.size :=
          linked.mem_walk.mp (List.mem_of_getElem? met)
        have atPlace : tree.place id = index := by
          rcases List.getElem?_eq_some_iff.mp met with ⟨bound, rfl⟩
          exact linked.nodup_walk.idxOf_getElem index bound
        rw [Option.bind_some, Option.bind_some, node?_splice, Option.map_map,
          Option.map_map, ← atPlace]
        congr 1
        funext node
        simp only [Function.comp_apply, Site.relabel_eq_comment_iff linked within]
        split <;> rfl
  · cases site <;> rfl

theorem renumbered_spliceAll
    (fragment : String)
    {sites : List Site}
    (linked : tree.Linked)
    (within : ∀ site ∈ sites, site.Inside tree) :
    (sites.foldl (injector.splice fragment) tree).renumbered =
      (sites.map (Site.relabel tree.place)).foldl (injector.splice fragment)
        tree.renumbered := by
  induction sites generalizing tree with
  | nil => rfl
  | cons site sites induction =>
      rcases List.forall_mem_cons.mp within with ⟨first, others⟩
      have links := (sameNames_splice injector fragment tree site).links
      have still : ∀ other ∈ sites,
          other.Inside (injector.splice fragment tree site) := by
        intro other member
        have before := others other member
        cases other with
        | readme => trivial
        | comment id =>
            change id < (injector.splice fragment tree site).size
            rw [links.size]
            exact before
      rw [List.foldl_cons, induction (links.linked linked) still, links.place_eq,
        renumbered_splice linked fragment first, List.map_cons, List.foldl_cons]

/-! ### Injections -/

/-- What is prepared for the renumbered tree is what is prepared for the tree, up to places. -/
theorem prepare_renumbered (linked : tree.Linked) (injector : Injector) :
    injector.prepare tree.renumbered =
      (injector.prepare tree).map fun prepared =>
        (prepared.1.map (Site.relabel tree.place), prepared.2) := by
  rw [prepare, prepare, sites_renumbered linked, List.length_map,
    collect_renumbered linked]
  split
  · rfl
  · cases collect tree with
    | error error => rfl
    | ok entries =>
        change (injector.renderer.page entries >>= _) = _
        change _ = Except.map _ (injector.renderer.page entries >>= _)
        cases injector.renderer.page entries <;> rfl

/-- Injecting and then renumbering is renumbering and then injecting. -/
theorem inject_renumbered (linked : tree.Linked) (injector : Injector) :
    injector.inject tree.renumbered =
      ((injector.inject tree).1.map (Report.relabel tree.place),
        (injector.inject tree).2.renumbered) := by
  rw [inject, inject, prepare_renumbered linked]
  cases prepared : injector.prepare tree with
  | error error => rfl
  | ok found =>
      rcases found with ⟨sites, entries, fragment⟩
      rcases prepare_eq_ok_iff.mp prepared with ⟨-, -, -, rfl⟩
      have within : ∀ site ∈ (divide injector.policy (injector.sites tree)).1,
          site.Inside tree :=
        fun site member => inside_of_mem_sites (mem_sites_of_mem_injected member)
      simp only [Except.map, divide_map, renumbered_spliceAll fragment linked within]
      rfl

end Injector

/--
A tree that survives being written and read has the same index afterwards.
Every injector fails on what was read exactly if it fails on the tree, with
the same error.  Otherwise both results have the same dump, and the reports
differ in the positions of the nodes only, which are places in the walk.
-/
theorem inject_read_write
    {tree : Tree}
    (built : tree.Built)
    (portable : tree.Portable)
    (shallow : tree.dumpValue.nesting ≤ 127) :
    ∃ copy, Dump.read (Dump.write tree) = .ok copy ∧
      collect copy = collect tree ∧
      ∀ injector : Injector,
        (∀ error,
          (injector.inject copy).1 = .error error ↔
            (injector.inject tree).1 = .error error) ∧
        ∀ report after, injector.inject tree = (.ok report, after) →
          ∃ copyAfter,
            injector.inject copy =
              (.ok (report.relabel fun id => tree.walk.idxOf id), copyAfter) ∧
            Dump.write copyAfter = Dump.write after := by
  have linked := built.linked
  refine ⟨tree.renumbered, Dump.read_write_of_shallow linked portable shallow,
    collect_renumbered linked, ?_⟩
  intro injector
  have run := Injector.inject_renumbered linked injector
  constructor
  · intro error
    rw [run]
    cases (injector.inject tree).1 with
    | error other => exact Iff.rfl
    | ok report => exact ⟨nofun, nofun⟩
  · intro report after success
    have links := (injector.sameNames_inject tree).links
    rw [success] at run links
    exact ⟨after.renumbered, run, (links.linked linked).write_renumbered⟩

/-- A project that asks for its index three times, and whose class was added last. -/
def lateClass : Tree :=
  let marked := some ⟨"", [⟨"index", "", []⟩], []⟩
  let planted := Tree.withRoot ⟨"p", 1, marked, []⟩
  let first := (planted.addChild 0 ⟨"a", 2, none, []⟩).1
  let second := (first.addChild 0 ⟨"b", 2, marked, []⟩).1
  (second.addChild 1 ⟨"C", 128, marked, []⟩).1

theorem built_lateClass : lateClass.Built := by
  refine .addChild (.addChild (.addChild (.withRoot _) ?_ _) ?_ _) ?_ _
  all_goals decide

theorem portable_lateClass : lateClass.Portable where
  symbols := by
    have nil := Json.Members.portable_nil
    have marked : ∀ comment ∈ some (Comment.mk "" [⟨"index", "", []⟩] []),
        comment.Portable := by
      rintro _ ⟨⟩
      exact ⟨List.forall_mem_singleton.mpr (nil Dump.tagKeys), nil _⟩
    have nodes : lateClass.nodes =
        [⟨⟨"p", 1, some ⟨"", [⟨"index", "", []⟩], []⟩, []⟩, none, [1, 2]⟩,
          ⟨⟨"a", 2, none, []⟩, some 0, [3]⟩,
          ⟨⟨"b", 2, some ⟨"", [⟨"index", "", []⟩], []⟩, []⟩, some 0, []⟩,
          ⟨⟨"C", 128, some ⟨"", [⟨"index", "", []⟩], []⟩, []⟩, some 1, []⟩].toArray := by
      decide
    rw [nodes]
    simp only [List.mem_toArray, List.forall_mem_cons]
    exact ⟨⟨marked, nil _⟩, ⟨nofun, nil _⟩, ⟨marked, nil _⟩, ⟨marked, nil _⟩,
      List.forall_mem_nil _⟩
  readme := by
    intro symbol found
    cases found
    rfl

/-- The copy passes over the same comments, the class now before the module behind it. -/
theorem inject_read_write_lateClass :
    ∃ copy, Dump.read (Dump.write lateClass) = .ok copy ∧
      ∃ after copyAfter,
        (Injector.ofMarker "index").inject lateClass =
          (.ok ⟨1, [.comment 0], [.comment 3, .comment 2]⟩, after) ∧
        (Injector.ofMarker "index").inject copy =
          (.ok ⟨1, [.comment 0], [.comment 2, .comment 3]⟩, copyAfter) ∧
        Dump.write copyAfter = Dump.write after := by
  have reported : ((Injector.ofMarker "index").inject lateClass).1 =
      .ok ⟨1, [.comment 0], [.comment 3, .comment 2]⟩ := by decide +kernel
  have walked : lateClass.walk = [0, 1, 3, 2] := by decide +kernel
  rcases inject_read_write built_lateClass portable_lateClass (by decide +kernel) with
    ⟨copy, read, -, injections⟩
  rcases (injections (.ofMarker "index")).2 _ _ (Prod.ext reported rfl) with
    ⟨copyAfter, injected, same⟩
  rw [walked] at injected
  exact ⟨copy, read, _, copyAfter, Prod.ext reported rfl, injected, same⟩

end Index

end Concordance
