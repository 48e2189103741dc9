import Concordance.Proofs.Index.Rendering
import Concordance.Proofs.Index.Splicing

/-!
# Injecting twice

An injection at every site clears the tags of every marked comment and keeps
all names and kinds.  So a second one makes the same index, finds no marked
comment, and succeeds.  What it does to the readme depends on the text that
the first one left there: if the placeholder stands in it again, be it behind
the first one, in the fragment or across their seams, the index is injected
into the readme once more.
-/

namespace Concordance.Index.Injector

theorem comment_mem_sites_iff
    {tree : Tree}
    (linked : tree.Linked)
    (injector : Injector)
    (id : NodeId) :
    Site.comment id ∈ injector.sites tree ↔ injector.Marked tree id := by
  constructor
  · exact comment_mem_sites
  · intro marked
    have inWalk : id ∈ tree.walk := by
      rcases marked with ⟨node, _, found, -⟩
      exact linked.mem_walk.mpr (Tree.lt_size_of_node found)
    have listed := List.mem_filter.mpr ⟨inWalk, (marksNode_iff _ _ _).mpr marked⟩
    exact List.mem_append_right _ (List.mem_map_of_mem listed)

/-- Splicing at every site leaves no marked comment. -/
theorem not_marked_spliceAll
    {tree : Tree}
    (linked : tree.Linked)
    (injector : Injector)
    (fragment : String)
    (id : NodeId) :
    ¬ injector.Marked
      ((injector.sites tree).foldl (injector.splice fragment) tree) id := by
  rintro ⟨node, comment, found, given, tag, inTags, named⟩
  rw [node?_spliceAll (nodup_sites linked injector)] at found
  rcases Option.map_eq_some_iff.mp found with ⟨old, here, rfl⟩
  split at given
  · rcases Option.map_eq_some_iff.mp given with ⟨_, -, rfl⟩
    cases inTags
  · rename_i absent
    exact absent ((comment_mem_sites_iff linked injector id).mpr
      ⟨old, comment, here, given, tag, inTags, named⟩)

/-- Without marked comments the readme is the only site there can be. -/
theorem sites_of_not_marked
    {injector : Injector}
    {tree : Tree}
    (unmarked : ∀ id, ¬ injector.Marked tree id) :
    injector.MarkedReadme tree ∧ injector.sites tree = [.readme] ∨
      ¬ injector.MarkedReadme tree ∧ injector.sites tree = [] := by
  have none : tree.walk.filter (injector.marksNode tree) = [] := by
    rw [List.filter_eq_nil_iff]
    intro id _ marked
    exact unmarked id ((marksNode_iff injector tree id).mp marked)
  have sites := sites_eq injector tree
  rw [none] at sites
  exact sites

theorem divide_of_ne_firstOnly
    {policy : MarkerPolicy}
    (every : policy ≠ .firstOnly)
    (sites : List Site) :
    divide policy sites = (sites, []) := by
  cases policy with
  | firstOnly => exact (every rfl).elim
  | broadcast => rfl
  | reject => rfl

/-- Whether the readme has the placeholder again, with the fragment in place of the first one. -/
def Respells (injector : Injector) (fragment : String) (tree : Tree) : Prop :=
  ∃ readme before behind,
    tree.readme = some readme ∧
    Text.FirstCut injector.placeholder readme before behind ∧
    Text.Occurs injector.placeholder
      (before ++ "\n\n" ++ fragment ++ "\n\n" ++ behind)

theorem spliceReadme_eq
    {injector : Injector}
    {fragment readme before behind : String}
    (cut : Text.FirstCut injector.placeholder readme before behind) :
    injector.spliceReadme fragment readme =
      before ++ "\n\n" ++ fragment ++ "\n\n" ++ behind := by
  rw [spliceReadme, cut.replaceFirst_eq, block]
  simp only [String.append_assoc]

theorem markedReadme_spliceAll_iff
    {tree : Tree}
    (linked : tree.Linked)
    (injector : Injector)
    (fragment : String) :
    injector.MarkedReadme
        ((injector.sites tree).foldl (injector.splice fragment) tree) ↔
      injector.Respells fragment tree := by
  rw [MarkedReadme, Respells, readme_spliceAll (nodup_sites linked injector)]
  constructor
  · rintro ⟨readme, given, occurs⟩
    split at given
    · rename_i marked
      rcases (readme_mem_sites injector tree).mp marked with ⟨old, stood, occurred⟩
      rcases Text.exists_firstCut occurred with ⟨before, behind, cut⟩
      rw [stood, Option.map_some, spliceReadme_eq cut] at given
      cases given
      exact ⟨old, before, behind, stood, cut, occurs⟩
    · rename_i unmarked
      exact (unmarked ((readme_mem_sites injector tree).mpr
        ⟨readme, given, occurs⟩)).elim
  · rintro ⟨old, before, behind, stood, cut, occurs⟩
    have marked : Site.readme ∈ injector.sites tree :=
      (readme_mem_sites injector tree).mpr ⟨old, stood, before, behind, cut.whole⟩
    refine ⟨_, ?_, occurs⟩
    rw [if_pos marked, stood, Option.map_some, spliceReadme_eq cut]

/-- A placeholder on one line is spelled again by the fragment, or stood twice in the readme. -/
theorem respells_iff
    {injector : Injector}
    {fragment : String}
    {tree : Tree}
    (oneLine : '\n' ∉ injector.placeholder.toList) :
    injector.Respells fragment tree ↔
      ∃ readme before behind,
        tree.readme = some readme ∧
        Text.FirstCut injector.placeholder readme before behind ∧
        (Text.Occurs injector.placeholder fragment ∨
          Text.Occurs injector.placeholder behind) := by
  rw [Respells]
  refine exists_congr fun readme => exists_congr fun before => exists_congr fun behind =>
    and_congr_right fun _ => and_congr_right fun cut => ?_
  rw [Text.occurs_append_emptyLine_iff oneLine, Text.occurs_append_emptyLine_iff oneLine]
  constructor
  · rintro ((inBefore | inFragment) | inBehind)
    · rw [cut.pattern_eq_empty inBefore]
      exact .inl ⟨"", fragment, by simp⟩
    · exact .inl inFragment
    · exact .inr inBehind
  · rintro (inFragment | inBehind)
    · exact .inl (.inr inFragment)
    · exact .inr inBehind

/-- The second injection finds the readme, or nothing, and does what it does at these sites. -/
theorem inject_spliced
    {injector : Injector}
    {tree after : Tree}
    {report : Report}
    (built : tree.Built)
    (every : injector.policy ≠ .firstOnly)
    (success : injector.inject tree = (.ok report, after)) :
    ∃ entries fragment,
      collect tree = .ok entries ∧
      injector.renderer.page entries = .ok fragment ∧
      injector.inject after =
        (.ok ⟨report.entries, injector.sites after, []⟩,
          (injector.sites after).foldl (injector.splice fragment) after) ∧
      (injector.Respells fragment tree ∧ injector.sites after = [.readme] ∨
        ¬ injector.Respells fragment tree ∧ injector.sites after = []) := by
  rcases inject_eq_ok_iff.mp success with
    ⟨entries, fragment, -, collected, rendered, rfl, rfl⟩
  have linked := built.linked
  rw [divide_of_ne_firstOnly every]
  generalize spliced : (injector.sites tree).foldl (injector.splice fragment) tree = after
  have same : collect after = .ok entries := by
    rw [← spliced, (sameNames_spliceAll _ tree).collect_eq linked, collected]
  have marked := markedReadme_spliceAll_iff linked injector fragment
  have sites := sites_of_not_marked (not_marked_spliceAll linked injector fragment)
  rw [spliced] at marked sites
  rw [marked] at sites
  have few : ¬ (injector.policy = .reject ∧ 1 < (injector.sites after).length) := by
    rintro ⟨-, several⟩
    rcases sites with ⟨-, sites⟩ | ⟨-, sites⟩ <;> rw [sites] at several <;>
      simp at several
  have again := inject_eq_ok_iff.mpr ⟨entries, fragment, few, same, rendered, rfl, rfl⟩
  rw [divide_of_ne_firstOnly every] at again
  exact ⟨entries, fragment, collected, rendered, again, sites⟩

/--
After an injection at every site a second one succeeds with the same number
of entries and skips nothing.  It finds no site and changes nothing exactly
if the first one has not spelled the placeholder in the readme again;
otherwise it injects the index into the readme once more.
-/
theorem inject_again
    {injector : Injector}
    {tree after : Tree}
    {report : Report}
    (built : tree.Built)
    (every : injector.policy ≠ .firstOnly)
    (success : injector.inject tree = (.ok report, after)) :
    ∃ entries fragment again last,
      collect tree = .ok entries ∧
      injector.renderer.page entries = .ok fragment ∧
      injector.inject after = (.ok again, last) ∧
      again.entries = report.entries ∧
      again.skipped = [] ∧
      (injector.Respells fragment tree → again.injected = [.readme]) ∧
      (again.injected = [] ∧ last = after ↔ ¬ injector.Respells fragment tree) := by
  rcases inject_spliced built every success with
    ⟨entries, fragment, collected, rendered, again, sites⟩
  refine ⟨entries, fragment, _, _, collected, rendered, again, rfl, rfl, ?_⟩
  rcases sites with ⟨respells, sites⟩ | ⟨settled, sites⟩
  · refine ⟨fun _ => sites, ?_, fun settled => (settled respells).elim⟩
    rintro ⟨none, -⟩
    exact (List.cons_ne_nil _ _ (sites.symm.trans none)).elim
  · refine ⟨fun respells => (settled respells).elim, fun _ => settled, fun _ => ⟨sites, ?_⟩⟩
    rw [sites]
    rfl

/-- An injector with the default marker and its placeholder, for runs that are repeated. -/
def guarded : Injector :=
  ⟨defaultMarker, placeholderOf defaultMarker, .reject, ⟨.flat, defaultTitle⟩⟩

/-- A project whose root asks for the index. -/
def askingRoot : Tree :=
  let root : Symbol := ⟨"p", 1, some ⟨"t", [⟨defaultMarker, "", []⟩], []⟩, []⟩
  ((Tree.withRoot root).addChild 0 ⟨"f", 64, none, []⟩).1

/-- A second injection leaves a project alone whose readme does not ask for the index. -/
theorem inject_again_askingRoot :
    ∃ after again,
      guarded.inject askingRoot = (.ok ⟨1, [.comment 0], []⟩, after) ∧
      guarded.inject after = (.ok again, after) ∧
      again.injected = [] := by
  have reported : (guarded.inject askingRoot).1 = .ok ⟨1, [.comment 0], []⟩ := by
    decide +kernel
  have built : askingRoot.Built := .addChild (.withRoot _) (by decide) _
  have success := Prod.ext (y := (_, _)) reported rfl
  rcases inject_again built (by decide) success with
    ⟨_, _, again, last, -, -, second, -, -, -, settled⟩
  rcases settled.mpr nofun with ⟨none, rfl⟩
  exact ⟨_, again, success, second, none⟩

/-- A project whose readme asks for the index, and whose function is named like the placeholder. -/
def respelling : Tree :=
  let planted := Tree.withRoot ⟨"p", 1, none, []⟩
  { (planted.addChild 0 ⟨placeholderOf defaultMarker, 64, none, []⟩).1 with
    readme := some (placeholderOf defaultMarker) }

theorem respells_respelling
    {entries : List Entry}
    {fragment : String}
    (collected : collect respelling = .ok entries)
    (rendered : guarded.renderer.page entries = .ok fragment) :
    guarded.Respells fragment respelling := by
  have index : collect respelling =
      .ok [⟨placeholderOf defaultMarker, .function, "p"⟩] := by
    decide +kernel
  have shown : Markup.wordBreak (Markup.escape (placeholderOf defaultMarker)) =
      guarded.placeholder := by
    decide +kernel
  rw [index] at collected
  cases collected
  have occurs := occurs_page rendered List.mem_cons_self
  rw [shown] at occurs
  refine ⟨placeholderOf defaultMarker, "", "", rfl, ⟨by decide, ?_⟩, ?_⟩
  · intro other rest _
    exact Nat.zero_le _
  · exact ((occurs.append_left _).append_right _).append_right _

/--
A function that is named like the placeholder makes the first injection put
the placeholder into the readme, and the second one injects the index into
the index.
-/
theorem not_forall_inject_again_settled :
    ¬ ∀ (injector : Injector) (tree after : Tree) (report : Report),
      tree.Built →
      injector.placeholder = placeholderOf injector.markerTag →
      injector.policy ≠ .firstOnly →
      injector.inject tree = (.ok report, after) →
      ∃ again, injector.inject after = (.ok again, after) ∧
        again.injected = [] ∧ again.skipped = [] := by
  intro settled
  have reported : (guarded.inject respelling).1 = .ok ⟨1, [.readme], []⟩ := by
    decide +kernel
  have built : respelling.Built :=
    .changeReadme (.addChild (.withRoot _) (by decide) _) _
  have success := Prod.ext (y := (_, _)) reported rfl
  rcases settled guarded respelling _ _ built rfl (by decide) success with
    ⟨again, second, none, -⟩
  rcases inject_spliced built (by decide) success with
    ⟨entries, fragment, collected, rendered, found, sites⟩
  rcases sites with ⟨-, sites⟩ | ⟨notAgain, -⟩
  · rw [second, sites] at found
    rcases Prod.mk.inj found with ⟨same, -⟩
    cases same
    cases none
  · exact notAgain (respells_respelling collected rendered)

end Concordance.Index.Injector
