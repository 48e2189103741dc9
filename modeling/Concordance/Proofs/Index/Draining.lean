import Concordance.Proofs.Index.Fragment
import Concordance.Proofs.Index.Refusal
import Concordance.Proofs.Index.Repetition

/-!
# Injecting one site at a time

An injector that uses the first site only can be run again and again.  Every
run makes the same index, since a splice keeps all names and links, and every
run takes the first site off the list of sites and leaves the others.  So the
runs work the list off from its head, and what they leave behind is what one
injection at every site leaves behind.

The one thing that can go wrong is that the readme has the placeholder again
once the fragment stands in it; then the readme stays a site for ever.
-/

namespace Concordance.Index.Injector

/-! ### What a splice does to the sites -/

/-- Whether one splice takes the placeholder from the readme, if it was there. -/
def Settles (injector : Injector) (fragment : String) (tree : Tree) : Prop :=
  injector.MarkedReadme tree →
    ¬ injector.MarkedReadme (injector.splice fragment tree .readme)

section

variable {injector : Injector} {fragment : String} {tree : Tree} {site : Site}

/-- A splice at a comment takes the markers from this comment and from no other. -/
theorem marked_splice_iff {id : NodeId} :
    injector.Marked (injector.splice fragment tree site) id ↔
      injector.Marked tree id ∧ site ≠ .comment id := by
  simp only [Marked, node?_splice]
  by_cases here : site = .comment id
  · simp only [here, ne_eq, not_true_eq_false, and_false, iff_false]
    rintro ⟨_, _, found, given, tag, inTags, -⟩
    rcases Option.map_eq_some_iff.mp found with ⟨node, -, rfl⟩
    rcases Option.map_eq_some_iff.mp given with ⟨comment, -, rfl⟩
    cases inTags
  · simp only [here, if_false, Option.map_id', ne_eq, not_false_eq_true, and_true]

theorem markedReadme_congr
    {left right : Tree}
    (same : left.readme = right.readme) :
    injector.MarkedReadme left ↔ injector.MarkedReadme right := by
  rw [MarkedReadme, MarkedReadme, same]

/-- A splice at a comment leaves the readme alone. -/
theorem readme_splice_of_ne (elsewhere : site ≠ .readme) :
    (injector.splice fragment tree site).readme = tree.readme := by
  rw [readme_splice, if_neg elsewhere]

theorem markedReadme_splice_iff
    (settles : injector.Settles fragment tree)
    (found : site ∈ injector.sites tree) :
    injector.MarkedReadme (injector.splice fragment tree site) ↔
      injector.MarkedReadme tree ∧ site ≠ .readme := by
  by_cases here : site = .readme
  · subst here
    have settled := settles ((readme_mem_sites injector tree).mp found)
    exact ⟨fun marked => (settled marked).elim, fun elsewhere => (elsewhere.2 rfl).elim⟩
  · rw [markedReadme_congr (readme_splice_of_ne here)]
    exact ⟨fun marked => ⟨marked, here⟩, And.left⟩

/-- The readme settles unless the splice spells the placeholder again. -/
theorem settles_iff :
    injector.Settles fragment tree ↔ ¬ injector.Respells fragment tree := by
  constructor
  · rintro settles ⟨readme, before, behind, given, cut, again⟩
    refine settles ⟨readme, given, before, behind, cut.whole⟩ ⟨_, ?_, again⟩
    rw [readme_splice, if_pos rfl, given, Option.map_some, spliceReadme_eq cut]
  · rintro settled ⟨readme, given, occurs⟩ ⟨spliced, left, again⟩
    rcases Text.exists_firstCut occurs with ⟨before, behind, cut⟩
    rw [readme_splice, if_pos rfl, given, Option.map_some, spliceReadme_eq cut] at left
    cases left
    exact settled ⟨readme, before, behind, given, cut, again⟩

/-- A splice takes its site, and no other, off the list of sites. -/
theorem sites_splice
    (settles : injector.Settles fragment tree)
    (found : site ∈ injector.sites tree) :
    injector.sites (injector.splice fragment tree site) =
      (injector.sites tree).filter (· != site) := by
  have walked := (sameNames_splice injector fragment tree site).links.walk_eq
  have readme : injector.marksReadme (injector.splice fragment tree site) =
      (injector.marksReadme tree && .readme != site) := by
    rw [Bool.eq_iff_iff, Bool.and_eq_true, marksReadme_iff, marksReadme_iff,
      markedReadme_splice_iff settles found, bne_iff_ne, ne_comm]
  have nodes : injector.marksNode (injector.splice fragment tree site) =
      fun id => injector.marksNode tree id && .comment id != site := by
    funext id
    rw [Bool.eq_iff_iff, Bool.and_eq_true, marksNode_iff, marksNode_iff,
      marked_splice_iff, bne_iff_ne, ne_comm]
  have comments :
      ((tree.walk.filter (injector.marksNode tree)).map Site.comment).filter (· != site) =
        (tree.walk.filter fun id => injector.marksNode tree id && .comment id != site).map
          .comment := by
    rw [List.filter_map, List.filter_filter]
    congr 2
    funext id
    exact Bool.and_comm _ _
  rw [sites, sites, walked, nodes, readme, List.filter_append, comments]
  congr 1
  cases injector.marksReadme tree with
  | false => rfl
  | true => by_cases here : Site.readme = site <;> simp [here]

end

/-! ### Runs of an injector -/

/-- The injector with another policy. -/
def under (injector : Injector) (policy : MarkerPolicy) : Injector :=
  { injector with policy := policy }

/-- Run injectors one after the other: what each reports, and the tree after the last. -/
def session : List Injector → Tree → List (Except IndexError Report) × Tree
  | [], tree => ([], tree)
  | injector :: injectors, tree =>
      let run := injector.inject tree
      let later := session injectors run.2
      (run.1 :: later.1, later.2)

/-- What every run needs: the index of the tree, and a readme that settles. -/
structure Ready
    (injector : Injector)
    (entries : List Entry)
    (fragment : String)
    (tree : Tree) : Prop where
  linked : tree.Linked
  collected : collect tree = .ok entries
  rendered : injector.renderer.page entries = .ok fragment
  settles : injector.Settles fragment tree

section

variable {injector : Injector} {entries : List Entry} {fragment : String} {tree : Tree}

/-- A run injects at the sites that its policy selects, unless there are too many. -/
theorem Ready.inject_under
    (ready : injector.Ready entries fragment tree)
    {policy : MarkerPolicy}
    (allowed : ¬ (injector.under policy).Overmarked tree) :
    (injector.under policy).inject tree =
      (.ok ⟨entries.length, (divide policy (injector.sites tree)).1,
          (divide policy (injector.sites tree)).2⟩,
        (divide policy (injector.sites tree)).1.foldl (injector.splice fragment) tree) :=
  inject_eq_ok_iff.mpr
    ⟨entries, fragment, allowed, ready.collected, ready.rendered, rfl, rfl⟩

/-- Splicing at the first site leaves the others to be spliced, and the same index. -/
theorem Ready.splice
    (ready : injector.Ready entries fragment tree)
    {site : Site}
    {rest : List Site}
    (all : injector.sites tree = site :: rest) :
    injector.Ready entries fragment (injector.splice fragment tree site) ∧
      injector.sites (injector.splice fragment tree site) = rest := by
  have found : site ∈ injector.sites tree := all ▸ List.mem_cons_self
  have same := sameNames_splice injector fragment tree site
  have left : injector.sites (injector.splice fragment tree site) = rest := by
    have distinct := nodup_sites ready.linked injector
    rw [all] at distinct
    rw [sites_splice ready.settles found, all, ← distinct.erase_eq_filter,
      List.erase_cons_head]
  refine ⟨⟨same.links.linked ready.linked, ?_, ready.rendered, ?_⟩, left⟩
  · rw [same.collect_eq ready.linked, ready.collected]
  · intro marked
    rcases (markedReadme_splice_iff ready.settles found).mp marked with
      ⟨markedBefore, elsewhere⟩
    have sameReadme :
        (injector.splice fragment (injector.splice fragment tree site) .readme).readme =
          (injector.splice fragment tree .readme).readme := by
      change (injector.splice fragment tree site).readme.map _ = tree.readme.map _
      rw [readme_splice_of_ne elsewhere]
    rw [markedReadme_congr sameReadme]
    exact ready.settles markedBefore

/-- Without sites, runs change nothing, whatever their policies are. -/
theorem Ready.session_idle
    (ready : injector.Ready entries fragment tree)
    (none : injector.sites tree = [])
    (policies : List MarkerPolicy) :
    session (policies.map injector.under) tree =
      (policies.map fun _ => .ok ⟨entries.length, [], []⟩, tree) := by
  induction policies with
  | nil => rfl
  | cons policy policies induction =>
      have allowed : ¬ (injector.under policy).Overmarked tree := by
        rintro ⟨-, several⟩
        change 1 < (injector.sites tree).length at several
        rw [none] at several
        cases several
      have run := ready.inject_under allowed
      have nothing : divide policy [] = ([], []) := by
        cases policy <;> rfl
      rw [none, nothing] at run
      rw [List.map_cons, session, run, List.foldl_nil, induction]
      rfl

/-- What runs at the first site report: each injects at one site and skips those behind it. -/
def drainReports (count : Nat) (sites : List Site) : List (Except IndexError Report) :=
  List.ofFn fun run : Fin sites.length =>
    .ok ⟨count, [sites[run]], sites.drop (run + 1)⟩

theorem drainReports_cons (count : Nat) (site : Site) (rest : List Site) :
    drainReports count (site :: rest) =
      .ok ⟨count, [site], rest⟩ :: drainReports count rest := by
  rw [drainReports, List.ofFn_succ]
  rfl

/-- Runs at the first site work the sites off from the head of their list. -/
theorem Ready.session_drain
    {sites : List Site}
    (ready : injector.Ready entries fragment tree)
    (all : injector.sites tree = sites)
    (later : List MarkerPolicy) :
    session (List.replicate sites.length (injector.under .firstOnly)
        ++ later.map injector.under) tree =
      (drainReports entries.length sites
          ++ later.map fun _ => .ok ⟨entries.length, [], []⟩,
        sites.foldl (injector.splice fragment) tree) := by
  -- One run changes the tree, so the invariant `Ready` is carried along to the next one.
  induction sites generalizing tree with
  | nil => exact ready.session_idle all later
  | cons site rest induction =>
      rcases ready.splice all with ⟨next, left⟩
      have allowed : ¬ (injector.under .firstOnly).Overmarked tree := nofun
      have run := ready.inject_under allowed
      rw [all] at run
      change _ = (_, injector.splice fragment tree site) at run
      rw [List.length_cons, List.replicate_succ, List.cons_append, session, run,
        induction next left, drainReports_cons]
      rfl

/--
Runs at the first site, as many as there are sites, inject at one site after
the other.  They leave the tree that one injection at every site leaves, and
from then on no run finds a site or changes anything.
-/
theorem session_drain_eq_broadcast
    (built : tree.Built)
    (collected : collect tree = .ok entries)
    (settles : ∀ fragment, injector.renderer.page entries = .ok fragment →
      injector.Settles fragment tree)
    (later : List MarkerPolicy) :
    ∃ last,
      (injector.under .broadcast).inject tree =
        (.ok ⟨entries.length, injector.sites tree, []⟩, last) ∧
      session
          (List.replicate (injector.sites tree).length (injector.under .firstOnly)
            ++ later.map injector.under) tree =
        (drainReports entries.length (injector.sites tree)
            ++ later.map fun _ => .ok ⟨entries.length, [], []⟩,
          last) := by
  rcases exists_page_of_collect built.linked collected injector.renderer with
    ⟨fragment, rendered⟩
  have ready : injector.Ready entries fragment tree :=
    ⟨built.linked, collected, rendered, settles fragment rendered⟩
  have allowed : ¬ (injector.under .broadcast).Overmarked tree := nofun
  exact ⟨_, ready.inject_under allowed, ready.session_drain rfl later⟩

end

/-- Two runs drain the project whose readme and root ask for the index; two more find nothing. -/
theorem session_drain_eq_broadcast_twiceMarked :
    let injector := Injector.mk "index" (placeholderOf "index") .firstOnly ⟨.flat, defaultTitle⟩
    session [injector, injector, injector, injector.under .broadcast] twiceMarked =
      ([.ok ⟨1, [.readme], [.comment 0]⟩, .ok ⟨1, [.comment 0], []⟩,
          .ok ⟨1, [], []⟩, .ok ⟨1, [], []⟩],
        ((injector.under .broadcast).inject twiceMarked).2) := by
  intro injector
  let entries : List Entry := [⟨"f", .function, "p"⟩]
  have collected : collect twiceMarked = .ok entries := by
    decide +kernel
  have classed : ∀ entry ∈ entries,
      entry.kind.renderClass? = some "tsd-kind-function" := by
    decide
  have unspelled : ¬ injector.placeholder.toList <:+:
      Markup.print (pagePieces injector.renderer (fun _ => "tsd-kind-function") entries) := by
    decide +kernel
  have settles (fragment : String) (rendered : injector.renderer.page entries = .ok fragment) :
      injector.Settles fragment twiceMarked := by
    have fragment_eq := Except.ok.inj (rendered.symm.trans (page_eq_ok classed))
    rw [settles_iff, respells_iff (by decide)]
    rintro ⟨readme, before, behind, given, cut, again⟩
    have alone : Text.FirstCut injector.placeholder injector.placeholder "" "" :=
      ⟨by simp, fun _ _ _ => Nat.zero_le _⟩
    obtain rfl : injector.placeholder = readme := Option.some.inj given
    rcases alone.unique cut with ⟨-, rfl⟩
    rw [fragment_eq, Text.occurs_iff_toList, Text.occurs_iff_toList,
      String.toList_ofList] at again
    rcases again with inFragment | inNothing
    · exact unspelled inFragment
    · exact absurd inNothing (by decide)
  rcases session_drain_eq_broadcast built_twiceMarked collected settles
      [.firstOnly, .broadcast] with
    ⟨last, broadcast, drained⟩
  have sites : injector.sites twiceMarked = [.readme, .comment 0] := by decide
  rw [sites] at drained
  rw [broadcast]
  exact drained

end Concordance.Index.Injector
