import Concordance.Index.Page
import Concordance.Proofs.Failure
import Concordance.Proofs.Text.Search

/-!
# What stands in the index page

The page fails only at an entry whose kind has no style class, and the first
such entry is named.  Otherwise every entry has its item on the page, and
every item shows the name of its entry, so that whatever a name spells once
it is escaped stands in the page.
-/

namespace Concordance.Index

/-! ### Where the page fails -/

theorem exists_item_eq_ok_iff {layout : PageLayout} {entry : Entry} :
    (∃ line, item layout entry = .ok line) ↔ entry.kind.renderClass?.isSome = true := by
  rw [item]
  cases entry.kind.renderClass? with
  | none => exact ⟨nofun, nofun⟩
  | some styleClass => exact ⟨fun _ => rfl, fun _ => ⟨_, rfl⟩⟩

theorem item_eq_error_iff
    {layout : PageLayout}
    {entry : Entry}
    {error : IndexError} :
    item layout entry = .error error ↔
      entry.kind.renderClass? = none ∧
        error = .missingRenderClass entry.name entry.kind := by
  rw [item]
  cases entry.kind.renderClass? with
  | none =>
      constructor
      · rintro ⟨⟩
        exact ⟨rfl, rfl⟩
      · rintro ⟨-, rfl⟩
        rfl
  | some styleClass => exact ⟨nofun, nofun⟩

/-- The page fails at the first entry whose kind has no style class. -/
theorem page_eq_error_iff
    {renderer : Renderer}
    {entries : List Entry}
    {error : IndexError} :
    renderer.page entries = .error error ↔
      ∃ before entry after,
        entries = before ++ entry :: after ∧
        (∀ earlier ∈ before, earlier.kind.renderClass?.isSome = true) ∧
        entry.kind.renderClass? = none ∧
        error = .missingRenderClass entry.name entry.kind := by
  simp only [← @item_eq_error_iff renderer.layout,
    ← @exists_item_eq_ok_iff renderer.layout, ← mapM_eq_error_iff, Renderer.page,
    bind_eq_error_iff]
  constructor
  · rintro (failed | ⟨_, _, ⟨⟩⟩)
    exact failed
  · exact .inl

/-- The page of entries whose kinds have style classes. -/
theorem exists_page_eq_ok
    (renderer : Renderer)
    {entries : List Entry}
    (classed : ∀ entry ∈ entries, entry.kind.renderClass?.isSome = true) :
    ∃ fragment, renderer.page entries = .ok fragment := by
  cases rendered : renderer.page entries with
  | ok fragment => exact ⟨fragment, rfl⟩
  | error error =>
      rcases page_eq_error_iff.mp rendered with ⟨before, entry, after, rfl, -, missing, -⟩
      have classed := classed entry (List.mem_append_right _ List.mem_cons_self)
      rw [missing] at classed
      cases classed

/-! ### What the page shows -/

theorem occurs_itemLine
    (layout : PageLayout)
    (styleClass : String)
    (entry : Entry) :
    Text.Occurs (Markup.wordBreak (Markup.escape entry.name))
      (itemLine layout styleClass entry) :=
  ((Text.Occurs.refl _).append_left _).append_right _

/-- The page shows the name of every entry. -/
theorem occurs_page
    {renderer : Renderer}
    {entries : List Entry}
    {fragment : String}
    (rendered : renderer.page entries = .ok fragment)
    {entry : Entry}
    (listed : entry ∈ entries) :
    Text.Occurs (Markup.wordBreak (Markup.escape entry.name)) fragment := by
  simp only [Renderer.page, bind_eq_ok_iff] at rendered
  rcases rendered with ⟨items, made, ⟨⟩⟩
  rcases exists_mem_of_mapM made entry listed with ⟨line, inItems, shown⟩
  have inLines : line ∈ openingLines renderer.title ++ items ++ closingLines :=
    List.mem_append_left _ (List.mem_append_right _ inItems)
  refine Text.Occurs.intercalate ?_ inLines "\n"
  rw [item] at shown
  split at shown
  · cases shown
    exact occurs_itemLine _ _ entry
  · cases shown

end Concordance.Index
