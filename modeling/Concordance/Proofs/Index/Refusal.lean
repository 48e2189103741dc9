import Concordance.Proofs.Index.Listing
import Concordance.Proofs.Index.Rendering
import Concordance.Proofs.Index.Splicing

/-!
# When an injection fails

An injection can fail for its policy, for a symbol that the collector cannot
classify, or for an entry that the page cannot show.  The last does not
happen: what the collector lists has a style class.  The policy is asked
first, so a tree with too many sites is refused for them, whatever its
symbols are.

A failing injection leaves the tree as it was.
-/

namespace Concordance.Index

/-- The page shows whatever the collector lists. -/
theorem exists_page_of_collect
    {tree : Tree}
    (linked : tree.Linked)
    {entries : List Entry}
    (collected : collect tree = .ok entries)
    (renderer : Renderer) :
    ∃ fragment, renderer.page entries = .ok fragment := by
  apply exists_page_eq_ok
  intro entry member
  exact Kind.renderClass?_isSome_of_index
    (disposition_of_mem_collect linked collected member)

namespace Injector

/-- Whether a tree has more sites than the policy allows. -/
def Overmarked (injector : Injector) (tree : Tree) : Prop :=
  injector.policy = .reject ∧ 1 < (injector.sites tree).length

/-- The errors with which an injection may end. -/
inductive Refusal : IndexError → Prop where
  | multipleMarkers (count : Nat) : Refusal (.multipleMarkers count)
  | unknownKind (name : String) (code : UInt32) : Refusal (.unknownKind name code)
  | unhandledKind (name : String) (kind : Kind) : Refusal (.unhandledKind name kind)
  | orphan (name : String) (kind : Kind) : Refusal (.orphan name kind)

/-- What can fail fails in this order: the policy, the collector, the page. -/
theorem prepare_eq_error_iff
    {injector : Injector}
    {tree : Tree}
    {error : IndexError} :
    injector.prepare tree = .error error ↔
      injector.Overmarked tree ∧
          error = .multipleMarkers (injector.sites tree).length ∨
        ¬ injector.Overmarked tree ∧
          (collect tree = .error error ∨
            ∃ entries, collect tree = .ok entries ∧
              injector.renderer.page entries = .error error) := by
  have rest :
      (collect tree >>= fun entries =>
        injector.renderer.page entries >>= fun fragment =>
          pure (injector.sites tree, entries, fragment)) = .error error ↔
        collect tree = .error error ∨
          ∃ entries, collect tree = .ok entries ∧
            injector.renderer.page entries = .error error := by
    have noneLater (entries : List Entry) (fragment : String) :
        (pure (injector.sites tree, entries, fragment) :
          Except IndexError (List Site × List Entry × String)) ≠ .error error := nofun
    simp only [bind_eq_error_iff, noneLater, and_false, exists_false, or_false]
  by_cases overmarked : injector.Overmarked tree
  · have refused :
        injector.prepare tree = .error (.multipleMarkers (injector.sites tree).length) := by
      rw [Overmarked] at overmarked
      rw [prepare, if_pos overmarked]
      rfl
    rw [refused]
    constructor
    · rintro ⟨⟩
      exact .inl ⟨overmarked, rfl⟩
    · rintro (⟨-, rfl⟩ | ⟨allowed, -⟩)
      · rfl
      · exact (allowed overmarked).elim
  · have passed : ¬ (injector.policy = .reject ∧ 1 < (injector.sites tree).length) :=
      overmarked
    rw [← rest, prepare, if_neg passed]
    constructor
    · exact fun failed => .inr ⟨overmarked, failed⟩
    · rintro (⟨refused, -⟩ | ⟨-, failed⟩)
      · exact (overmarked refused).elim
      · exact failed

/-- An injection fails where its preparation does, before anything is spliced. -/
theorem inject_eq_error_iff_prepare
    {injector : Injector}
    {tree after : Tree}
    {error : IndexError} :
    injector.inject tree = (.error error, after) ↔
      after = tree ∧ injector.prepare tree = .error error := by
  rw [inject]
  cases injector.prepare tree with
  | error other =>
      constructor
      · rintro ⟨⟩
        exact ⟨rfl, rfl⟩
      · rintro ⟨rfl, ⟨⟩⟩
        rfl
  | ok prepared =>
      constructor
      · rintro ⟨⟩
      · rintro ⟨-, ⟨⟩⟩

/-- In a tree that is built, only the policy and the collector can fail. -/
theorem inject_eq_error_iff_collect
    {injector : Injector}
    {tree after : Tree}
    {error : IndexError}
    (linked : tree.Linked) :
    injector.inject tree = (.error error, after) ↔
      after = tree ∧
        (injector.Overmarked tree ∧
            error = .multipleMarkers (injector.sites tree).length ∨
          ¬ injector.Overmarked tree ∧ collect tree = .error error) := by
  have shown :
      (∃ entries, collect tree = .ok entries ∧
        injector.renderer.page entries = .error error) ↔ False := by
    refine iff_false_intro ?_
    rintro ⟨entries, collected, failed⟩
    rcases exists_page_of_collect linked collected injector.renderer with
      ⟨fragment, rendered⟩
    rw [rendered] at failed
    cases failed
  rw [inject_eq_error_iff_prepare, prepare_eq_error_iff, shown, or_false]

theorem Refusal.of_offends
    {tree : Tree}
    {id : NodeId}
    {error : IndexError}
    (offends : Offends tree id error) :
    Refusal error := by
  cases offends with
  | unknownKind => exact .unknownKind _ _
  | unhandledKind => exact .unhandledKind _ _
  | orphan => exact .orphan _ _

/--
An injection fails if the tree has more sites than the policy allows, whatever
else is wrong with it, and otherwise exactly if the index cannot be collected,
whether there are sites or not.  Nothing else makes it fail, and a failing one
leaves the tree as it was.
-/
theorem inject_eq_error_iff
    {tree : Tree}
    (built : tree.Built)
    (injector : Injector)
    (error : IndexError)
    (after : Tree) :
    (injector.inject tree = (.error error, after) ↔
      after = tree ∧
        (injector.Overmarked tree ∧
            error = .multipleMarkers (injector.sites tree).length ∨
          ¬ injector.Overmarked tree ∧ collect tree = .error error)) ∧
      (injector.inject tree = (.error error, after) → Refusal error) := by
  refine ⟨inject_eq_error_iff_collect built.linked, ?_⟩
  intro failed
  rcases (inject_eq_error_iff_collect built.linked).mp failed with
    ⟨-, ⟨-, rfl⟩ | ⟨-, uncollected⟩⟩
  · exact .multipleMarkers _
  · rcases (collect_eq_error_iff built.linked).mp uncollected with
      ⟨_, _, _, -, -, offends⟩
    exact .of_offends offends

/-- A project with a parameter, which has no place in the index, and with two marked comments. -/
def overmarkedMisplaced : Tree :=
  let marked : Comment := ⟨"", [⟨"index", "", []⟩], []⟩
  (misplaced.setComment 0 (some marked)).setComment 2 (some marked)

/-- With the markers it is refused for them, and without them for the parameter. -/
theorem inject_eq_error_iff_overmarkedMisplaced :
    let injector := Injector.mk "index" (placeholderOf "index") .reject ⟨.flat, defaultTitle⟩
    injector.inject overmarkedMisplaced = (.error (.multipleMarkers 2), overmarkedMisplaced) ∧
      injector.inject misplaced = (.error (.unhandledKind "x" .parameter), misplaced) ∧
      Refusal (.unhandledKind "x" .parameter) := by
  intro injector
  have marked : overmarkedMisplaced.Built := (built_misplaced.setComment 0 _).setComment 2 _
  have few : ¬ injector.Overmarked misplaced := by
    rintro ⟨-, several⟩
    revert several
    decide
  have refused := (inject_eq_error_iff built_misplaced injector _ _).1.mpr
    ⟨rfl, .inr ⟨few, (by decide +kernel : collect misplaced = .error (.unhandledKind "x" .parameter))⟩⟩
  refine ⟨?_, refused, (inject_eq_error_iff built_misplaced injector _ _).2 refused⟩
  exact (inject_eq_error_iff marked injector _ _).1.mpr
    ⟨rfl, .inl ⟨⟨rfl, by decide⟩, rfl⟩⟩

end Injector

end Concordance.Index
