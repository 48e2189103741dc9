import Concordance.Index.Injection
import Concordance.Proofs.Index.Collecting
import Concordance.Proofs.Text.Search

/-!
# What an injection changes

Sites are found once, before the first splice, and every splice changes the
place that its site names and nothing else.  Since no site is found twice,
splices at several sites do not meet: each finds its place as the tree had it
before the injection.

`Effect` says what a successful injection reports and what it leaves behind.
-/

namespace Concordance.Index.Injector

/-! ### Sites -/

/-- Whether the comment of a node carries the marker tag. -/
def Marked (injector : Injector) (tree : Tree) (id : NodeId) : Prop :=
  ∃ node comment, tree.node? id = some node ∧
    node.symbol.comment = some comment ∧
    ∃ tag ∈ comment.tags, tag.name = injector.markerTag

/-- Whether the readme has the placeholder somewhere. -/
def MarkedReadme (injector : Injector) (tree : Tree) : Prop :=
  ∃ readme, tree.readme = some readme ∧ Text.Occurs injector.placeholder readme

theorem findTag?_isSome_iff (comment : Comment) (name : String) :
    (comment.findTag? name).isSome = true ↔ ∃ tag ∈ comment.tags, tag.name = name := by
  rw [Comment.findTag?, List.find?_isSome]
  simp

theorem marksNode_iff (injector : Injector) (tree : Tree) (id : NodeId) :
    injector.marksNode tree id = true ↔ injector.Marked tree id := by
  rw [marksNode, Marked, Tree.symbol?]
  cases tree.node? id with
  | none => simp
  | some node =>
      change injector.marks node.symbol = true ↔ _
      rw [marks]
      cases given : node.symbol.comment with
      | none => simp [given]
      | some comment => simp [given, findTag?_isSome_iff]

theorem marksReadme_iff (injector : Injector) (tree : Tree) :
    injector.marksReadme tree = true ↔ injector.MarkedReadme tree := by
  rw [marksReadme, MarkedReadme]
  cases tree.readme with
  | none => simp
  | some readme => simp [Text.contains_iff]

theorem readme_mem_sites (injector : Injector) (tree : Tree) :
    Site.readme ∈ injector.sites tree ↔ injector.MarkedReadme tree := by
  rw [← marksReadme_iff, sites, List.mem_append]
  split <;> simp_all

theorem comment_mem_sites
    {injector : Injector}
    {tree : Tree}
    {id : NodeId}
    (found : Site.comment id ∈ injector.sites tree) :
    injector.Marked tree id := by
  rw [← marksNode_iff]
  rw [sites, List.mem_append] at found
  rcases found with inReadme | inComments
  · split at inReadme <;> simp at inReadme
  · rcases List.mem_map.mp inComments with ⟨other, member, ⟨⟩⟩
    exact (List.mem_filter.mp member).2

/-- No site is found twice. -/
theorem nodup_sites
    {tree : Tree}
    (linked : tree.Linked)
    (injector : Injector) :
    (injector.sites tree).Nodup := by
  have comments : ((tree.walk.filter (injector.marksNode tree)).map
      Site.comment).Nodup := by
    refine List.Pairwise.map _ ?_ (linked.nodup_walk.filter _)
    intro left right other same
    exact other (Site.comment.inj same)
  rw [sites]
  split
  · refine List.nodup_cons.mpr ⟨?_, comments⟩
    intro member
    rcases List.mem_map.mp member with ⟨_, -, ⟨⟩⟩
  · exact comments

/-! ### Single splices -/

/-- The node with the fragment in its comment. -/
def spliceNode (injector : Injector) (fragment : String) (node : Node) : Node :=
  { node with
    symbol :=
      { node.symbol with
        comment := node.symbol.comment.map (injector.spliceComment fragment) } }

/-- The readme with the fragment in place of the first placeholder. -/
def spliceReadme (injector : Injector) (fragment readme : String) : String :=
  Text.replaceFirst readme injector.placeholder (block fragment)

section

variable (injector : Injector) (fragment : String) (tree : Tree)

theorem node?_splice (site : Site) (id : NodeId) :
    (injector.splice fragment tree site).node? id =
      (tree.node? id).map fun node =>
        if site = .comment id then injector.spliceNode fragment node else node := by
  cases site with
  | readme =>
      change tree.node? id = _
      simp
  | comment changed =>
      rw [splice, Tree.node?_modifySymbol]
      congr 1
      funext node
      by_cases same : id = changed
      · rw [if_pos same, if_pos (congrArg Site.comment same.symm)]
        rfl
      · rw [if_neg same, if_neg fun equal => same (Site.comment.inj equal).symm]

theorem readme_splice (site : Site) :
    (injector.splice fragment tree site).readme =
      if site = .readme then tree.readme.map (injector.spliceReadme fragment)
      else tree.readme := by
  cases site <;> rfl

theorem sameNames_splice (site : Site) :
    SameNames (injector.splice fragment tree site) tree := by
  constructor
  · cases site with
    | readme => exact Tree.sameLinks_readme tree _
    | comment id =>
        rw [splice]
        exact Tree.sameLinks_modifySymbol tree id _
  · intro id
    rw [Tree.symbol?, Tree.symbol?, node?_splice]
    cases tree.node? id with
    | none => rfl
    | some node =>
        simp only [Option.map_some]
        split <;> rfl

end

/-! ### Several splices -/

section

variable {injector : Injector} {fragment : String}

theorem sameNames_spliceAll (sites : List Site) (tree : Tree) :
    SameNames (sites.foldl (injector.splice fragment) tree) tree := by
  induction sites generalizing tree with
  | nil => exact .refl tree
  | cons site sites induction =>
      exact (induction _).trans (sameNames_splice injector fragment tree site)

/-- An injection changes no link, name or kind code, whether it succeeds or not. -/
theorem sameNames_inject (injector : Injector) (tree : Tree) :
    SameNames (injector.inject tree).2 tree := by
  rw [inject]
  split
  · exact .refl tree
  · exact sameNames_spliceAll _ tree

theorem node?_spliceAll
    {sites : List Site}
    (distinct : sites.Nodup)
    (tree : Tree)
    (id : NodeId) :
    (sites.foldl (injector.splice fragment) tree).node? id =
      (tree.node? id).map fun node =>
        if .comment id ∈ sites then injector.spliceNode fragment node else node := by
  induction sites generalizing tree with
  | nil => simp
  | cons site sites induction =>
      rcases List.nodup_cons.mp distinct with ⟨absent, rest⟩
      rw [List.foldl_cons, induction rest, node?_splice, Option.map_map]
      congr 1
      funext node
      by_cases here : site = .comment id
      · subst here
        simp [absent]
      · simp [here, Ne.symm here]

theorem readme_spliceAll
    {sites : List Site}
    (distinct : sites.Nodup)
    (tree : Tree) :
    (sites.foldl (injector.splice fragment) tree).readme =
      if .readme ∈ sites then tree.readme.map (injector.spliceReadme fragment)
      else tree.readme := by
  induction sites generalizing tree with
  | nil => simp
  | cons site sites induction =>
      rcases List.nodup_cons.mp distinct with ⟨absent, rest⟩
      rw [List.foldl_cons, induction rest, readme_splice]
      by_cases here : site = .readme
      · subst here
        simp [absent]
      · simp [here, Ne.symm here]

end

/-! ### Injecting -/

theorem prepare_eq_ok_iff
    {injector : Injector}
    {tree : Tree}
    {found : List Site}
    {entries : List Entry}
    {fragment : String} :
    injector.prepare tree = .ok (found, entries, fragment) ↔
      ¬ (injector.policy = .reject ∧ 1 < (injector.sites tree).length) ∧
        collect tree = .ok entries ∧
        injector.renderer.page entries = .ok fragment ∧
        found = injector.sites tree := by
  rw [prepare]
  by_cases rejected : injector.policy = .reject ∧ 1 < (injector.sites tree).length
  · rw [if_pos rejected]
    constructor
    · exact nofun
    · rintro ⟨allowed, -⟩
      exact (allowed rejected).elim
  · rw [if_neg rejected]
    change (collect tree >>= fun entries => _) = _ ↔ _
    simp only [bind_eq_ok_iff]
    constructor
    · rintro ⟨_, collected, _, rendered, ⟨⟩⟩
      exact ⟨rejected, collected, rendered, rfl⟩
    · rintro ⟨-, collected, rendered, rfl⟩
      exact ⟨entries, collected, fragment, rendered, rfl⟩

/-- An injection succeeds if its preparation does, and nothing can fail after that. -/
theorem inject_eq_ok_iff
    {injector : Injector}
    {tree after : Tree}
    {report : Report} :
    injector.inject tree = (.ok report, after) ↔
      ∃ entries fragment,
        ¬ (injector.policy = .reject ∧ 1 < (injector.sites tree).length) ∧
        collect tree = .ok entries ∧
        injector.renderer.page entries = .ok fragment ∧
        report =
          ⟨entries.length, (divide injector.policy (injector.sites tree)).1,
            (divide injector.policy (injector.sites tree)).2⟩ ∧
        after = report.injected.foldl (injector.splice fragment) tree := by
  rw [inject]
  constructor
  · intro success
    split at success
    · cases success
    · rename_i found entries fragment prepared
      rcases prepare_eq_ok_iff.mp prepared with ⟨allowed, collected, rendered, rfl⟩
      cases success
      exact ⟨entries, fragment, allowed, collected, rendered, rfl, rfl⟩
  · rintro ⟨entries, fragment, allowed, collected, rendered, rfl, rfl⟩
    rw [prepare_eq_ok_iff.mpr ⟨allowed, collected, rendered, rfl⟩]

theorem divide_append (policy : MarkerPolicy) (sites : List Site) :
    (divide policy sites).1 ++ (divide policy sites).2 = sites := by
  cases policy with
  | firstOnly => exact List.take_append_drop 1 sites
  | broadcast => exact List.append_nil sites
  | reject => exact List.append_nil sites

theorem divide_fst (policy : MarkerPolicy) (sites : List Site) :
    (divide policy sites).1 =
      if policy = .firstOnly then sites.take 1 else sites := by
  cases policy <;> rfl

/-- What a successful injection finds, reports and leaves behind. -/
structure Effect
    (injector : Injector)
    (fragment : String)
    (tree : Tree)
    (report : Report)
    (after : Tree) : Prop where
  /-- The sites are the readme, if it has the placeholder, and the marked comments in order. -/
  sites :
    ∃ marked : NodeId → Bool,
      (∀ id, marked id = true ↔ injector.Marked tree id) ∧
      (injector.MarkedReadme tree ∧
          report.injected ++ report.skipped =
            .readme :: (tree.walk.filter marked).map .comment ∨
        ¬ injector.MarkedReadme tree ∧
          report.injected ++ report.skipped =
            (tree.walk.filter marked).map .comment)
  /-- The first site only, or all of them, receive the index. -/
  injected :
    report.injected =
      if injector.policy = .firstOnly
      then (report.injected ++ report.skipped).take 1
      else report.injected ++ report.skipped
  /-- There is an entry for each listed symbol. -/
  entries :
    report.entries = tree.nodes.toList.countP fun node => node.symbol.listed
  /-- A comment that receives the index keeps its text in front of it; its tags go. -/
  comment :
    ∀ id, .comment id ∈ report.injected →
      ∃ node comment before tag behind,
        tree.node? id = some node ∧
        node.symbol.comment = some comment ∧
        comment.tags = before ++ tag :: behind ∧
        tag.name = injector.markerTag ∧
        (∀ other ∈ before, other.name ≠ injector.markerTag) ∧
        after.node? id = some
          { node with
            symbol :=
              { node.symbol with
                comment := some
                  { comment with
                    text := comment.text ++ "\n\n" ++ fragment ++ "\n\n" ++ tag.text
                    tags := [] } } }
  /-- All other nodes stay as they are. -/
  others :
    ∀ id, .comment id ∉ report.injected → after.node? id = tree.node? id
  /-- A readme that receives the index has it in place of the first placeholder. -/
  readme :
    .readme ∈ report.injected →
      ∃ readme before behind,
        tree.readme = some readme ∧
        Text.FirstCut injector.placeholder readme before behind ∧
        after.readme = some (before ++ "\n\n" ++ fragment ++ "\n\n" ++ behind)
  /-- Otherwise the readme stays as it is. -/
  otherwise : .readme ∉ report.injected → after.readme = tree.readme

theorem exists_first_marker
    {injector : Injector}
    {tree : Tree}
    {id : NodeId}
    (marked : injector.Marked tree id) :
    ∃ node comment before tag behind,
      tree.node? id = some node ∧
      node.symbol.comment = some comment ∧
      comment.tags = before ++ tag :: behind ∧
      tag.name = injector.markerTag ∧
      (∀ other ∈ before, other.name ≠ injector.markerTag) ∧
      comment.findTag? injector.markerTag = some tag := by
  rcases marked with ⟨node, comment, found, given, marker⟩
  rcases Option.isSome_iff_exists.mp ((findTag?_isSome_iff comment _).mpr marker) with
    ⟨tag, first⟩
  rcases List.find?_eq_some_iff_append.mp first with
    ⟨named, before, behind, split, earlier⟩
  refine ⟨node, comment, before, tag, behind, found, given, split, ?_, ?_, first⟩
  · exact beq_iff_eq.mp named
  · intro other member
    simpa using earlier other member

theorem mem_sites_of_mem_injected
    {injector : Injector}
    {tree : Tree}
    {site : Site}
    (member : site ∈ (divide injector.policy (injector.sites tree)).1) :
    site ∈ injector.sites tree := by
  rw [← divide_append injector.policy (injector.sites tree)]
  exact List.mem_append_left _ member

theorem nodup_injected
    {tree : Tree}
    (linked : tree.Linked)
    (injector : Injector) :
    (divide injector.policy (injector.sites tree)).1.Nodup := by
  have distinct := nodup_sites linked injector
  rw [← divide_append injector.policy (injector.sites tree)] at distinct
  exact (List.nodup_append.mp distinct).1

theorem sites_eq (injector : Injector) (tree : Tree) :
    injector.MarkedReadme tree ∧
        injector.sites tree =
          .readme :: (tree.walk.filter (injector.marksNode tree)).map .comment ∨
      ¬ injector.MarkedReadme tree ∧
        injector.sites tree =
          (tree.walk.filter (injector.marksNode tree)).map .comment := by
  rw [← marksReadme_iff, sites]
  by_cases marked : injector.marksReadme tree = true
  · rw [if_pos marked]
    exact .inl ⟨marked, rfl⟩
  · rw [if_neg marked]
    exact .inr ⟨marked, rfl⟩

/--
A successful injection renders the index of the tree as it was, and changes
the sites that it reports as injected and nothing else.
-/
theorem inject_effect
    {injector : Injector}
    {tree after : Tree}
    {report : Report}
    (built : tree.Built)
    (success : injector.inject tree = (.ok report, after)) :
    ∃ entries fragment,
      collect tree = .ok entries ∧
      injector.renderer.page entries = .ok fragment ∧
      injector.Effect fragment tree report after := by
  rcases inject_eq_ok_iff.mp success with
    ⟨entries, fragment, -, collected, rendered, rfl, rfl⟩
  have linked := built.linked
  have distinct := nodup_injected linked injector
  refine ⟨entries, fragment, collected, rendered, ?_⟩
  constructor
  · rw [divide_append]
    exact ⟨injector.marksNode tree, marksNode_iff injector tree,
      sites_eq injector tree⟩
  · rw [divide_append]
    exact divide_fst injector.policy _
  · exact length_collect linked collected
  · intro id member
    rcases exists_first_marker (comment_mem_sites (mem_sites_of_mem_injected member)) with
      ⟨node, comment, before, tag, behind, found, given, split, named, earlier, first⟩
    refine ⟨node, comment, before, tag, behind, found, given, split, named, earlier, ?_⟩
    rw [node?_spliceAll distinct, found, Option.map_some, if_pos member, spliceNode,
      given, Option.map_some, spliceComment, first, block]
    simp only [String.append_assoc]
  · intro id absent
    rw [node?_spliceAll distinct]
    simp only [if_neg absent, Option.map_id']
  · intro member
    rcases (readme_mem_sites injector tree).mp (mem_sites_of_mem_injected member) with
      ⟨readme, given, occurs⟩
    rcases Text.exists_firstCut occurs with ⟨before, behind, cut⟩
    refine ⟨readme, before, behind, given, cut, ?_⟩
    rw [readme_spliceAll distinct, if_pos member, given, Option.map_some,
      spliceReadme, cut.replaceFirst_eq, block]
    simp only [String.append_assoc]
  · intro absent
    rw [readme_spliceAll distinct, if_neg absent]

/-- A project with one function, and with markers in the readme and at the root. -/
def twiceMarked : Tree :=
  let root : Symbol := ⟨"p", 1, some ⟨"t", [⟨"index", "u", []⟩, ⟨"index", "v", []⟩], []⟩, []⟩
  let planted := Tree.withRoot root
  { (planted.addChild 0 ⟨"f", 64, none, []⟩).1 with readme := some (placeholderOf "index") }

theorem built_twiceMarked : twiceMarked.Built :=
  .changeReadme (.addChild (.withRoot _) (by decide) _) _

/-- Both sites receive the index, and the comment keeps the text of its first marker only. -/
theorem inject_effect_twiceMarked :
    ∃ fragment after,
      (Injector.mk "index" (placeholderOf "index") .broadcast ⟨.flat, defaultTitle⟩).inject
          twiceMarked =
        (.ok ⟨1, [.readme, .comment 0], []⟩, after) ∧
      after.node? 0 = some
        ⟨⟨"p", 1, some ⟨"t" ++ "\n\n" ++ fragment ++ "\n\n" ++ "u", [], []⟩, []⟩, none, [1]⟩ := by
  have reported :
      ((Injector.mk "index" (placeholderOf "index") .broadcast
          ⟨.flat, defaultTitle⟩).inject twiceMarked).1 =
        .ok ⟨1, [.readme, .comment 0], []⟩ := by
    decide +kernel
  have success := Prod.ext (y := (_, _)) reported rfl
  rcases inject_effect built_twiceMarked success with ⟨_, fragment, -, -, effect⟩
  refine ⟨fragment, _, success, ?_⟩
  rcases effect.comment 0 (by decide) with
    ⟨node, comment, before, tag, behind, found, given, split, named, earlier, changed⟩
  cases found
  cases given
  cases before with
  | nil =>
      cases split
      exact changed
  | cons other before =>
      rcases List.cons.inj split with ⟨rfl, -⟩
      exact (earlier _ List.mem_cons_self rfl).elim

end Concordance.Index.Injector
