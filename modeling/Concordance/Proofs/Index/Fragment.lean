import Mathlib.Data.List.Forall2
import Concordance.Proofs.Index.Rendering
import Concordance.Proofs.Markup.Escaping

/-!
# The page as markup

Whatever the title, the names and the names of parents are, a reader of
markup finds the tags of the template in the page and no others, apart from
the tags that allow a line break.  Undoing the entities gives the title back
from the heading, the address of each entry from its link, and its name from
what the link shows.
-/

namespace Concordance.Index

open Markup (Piece)

/-! ### The template -/

/-- The line of the title. -/
def headingPieces (title : List Char) : List Piece :=
  .tag ⟨"h3", []⟩ :: title.map .char ++ [.tag ⟨"/h3", []⟩]

/-- The lines above the items. -/
def openingPieces (title : List Char) : List (List Piece) :=
  [[.tag ⟨"section", [("class", "tsd-panel tsd-index-panel")]⟩],
    headingPieces title,
    [.tag ⟨"div", [("class", "tsd-index-content")]⟩],
    [.tag ⟨"section", [("class", "tsd-index-section")]⟩],
    [.tag ⟨"ul", [("class", "tsd-index-list")]⟩]]

/-- The lines below the items. -/
def closingPieces : List (List Piece) :=
  [[.tag ⟨"/ul", []⟩], [.tag ⟨"/section", []⟩], [.tag ⟨"/div", []⟩],
    [.tag ⟨"/section", []⟩]]

/-- The line of an item, around its class, its address and what it shows. -/
def itemPieces (styleClass url : String) (shown : List Piece) : List Piece :=
  .tag ⟨"li", [("class", styleClass ++ " tsd-parent-kind-module")]⟩
    :: .tag ⟨"a", [("href", url), ("class", "tsd-kind-icon")]⟩
    :: shown ++ [.tag ⟨"/a", []⟩, .tag ⟨"/li", []⟩]

/-- Lines one below the other. -/
def joinPieces (lines : List (List Piece)) : List Piece :=
  [.char '\n'].intercalate lines

/-- Whether a line shows an entry: its class, its address and its name. -/
inductive ShowsEntry (layout : PageLayout) (entry : Entry) : List Piece → Prop where
  | intro {styleClass url : String} {shown : List Piece}
      (classed : entry.kind.renderClass? = some styleClass)
      (linked : Markup.unescape url = entryUrl layout entry)
      (broken : ∀ tag, .tag tag ∈ shown → tag = Markup.breakTag)
      (named : Markup.unescape (Markup.textOf shown) = entry.name) :
      ShowsEntry layout entry (itemPieces styleClass url shown)

/-- Whether markup shows a title and entries, one line for each entry in their order. -/
inductive ShowsPage (renderer : Renderer) (entries : List Entry) : List Piece → Prop where
  | intro {title : List Char} {items : List (List Piece)}
      (titled : Markup.unescape (String.ofList title) = renderer.title)
      (listed : List.Forall₂ (ShowsEntry renderer.layout) entries items) :
      ShowsPage renderer entries
        (joinPieces (openingPieces title ++ items ++ closingPieces))

/-! ### The pieces of the page -/

/-- The pieces of the line of an entry. -/
def entryPieces (layout : PageLayout) (styleClass : String) (entry : Entry) : List Piece :=
  itemPieces styleClass (Markup.escape (entryUrl layout entry))
    (Markup.breakPieces (Markup.escapeChars entry.name.toList))

/-- The pieces of the page, given the style class of every entry. -/
def pagePieces
    (renderer : Renderer)
    (styleClass : Entry → String)
    (entries : List Entry) : List Piece :=
  joinPieces
    (openingPieces (Markup.escapeChars renderer.title.toList)
      ++ entries.map (fun entry => entryPieces renderer.layout (styleClass entry) entry)
      ++ closingPieces)

theorem toList_itemLine
    (layout : PageLayout)
    (styleClass : String)
    (entry : Entry) :
    (itemLine layout styleClass entry).toList =
      Markup.print (entryPieces layout styleClass entry) := by
  -- With these literals the equation of `itemLine` is slow to make, so it is not asked for.
  delta itemLine
  simp only [entryPieces, itemPieces, Piece.print, Markup.Tag.print,
    Markup.printAttribute, Markup.toList_wordBreak_escape, Markup.print_cons,
    Markup.print_append, Markup.print_nil, String.toList_append, List.flatMap_cons,
    List.flatMap_nil, List.append_assoc, List.cons_append, List.nil_append]
  simp only [String.reduceToList, List.cons_append, List.nil_append]

theorem map_toList_openingLines (title : String) :
    (openingLines title).map String.toList =
      (openingPieces (Markup.escapeChars title.toList)).map Markup.print := by
  simp [openingLines, openingPieces, headingPieces, Piece.print, Markup.Tag.print,
    Markup.printAttribute, Markup.escape]

theorem map_toList_closingLines :
    closingLines.map String.toList = closingPieces.map Markup.print := by
  decide

theorem joinPieces_cons_cons (line second : List Piece) (lines : List (List Piece)) :
    joinPieces (line :: second :: lines) =
      line ++ .char '\n' :: joinPieces (second :: lines) := by
  rw [joinPieces, List.intercalate_cons_cons, List.append_assoc]
  rfl

theorem print_joinPieces (lines : List (List Piece)) :
    Markup.print (joinPieces lines) = ['\n'].intercalate (lines.map Markup.print) := by
  induction lines with
  | nil => rfl
  | cons line lines induction =>
      cases lines with
      | nil => simp [joinPieces]
      | cons second lines =>
          rw [joinPieces_cons_cons, Markup.print_append, Markup.print_cons, induction,
            List.map_cons, List.map_cons, List.map_cons, List.intercalate_cons_cons,
            List.append_assoc]
          rfl

/-- The lines of the page, joined, are what its pieces print. -/
theorem toList_lines
    (renderer : Renderer)
    (styleClass : Entry → String)
    (entries : List Entry) :
    ("\n".intercalate
        (openingLines renderer.title
          ++ entries.map (fun entry => itemLine renderer.layout (styleClass entry) entry)
          ++ closingLines)).toList =
      Markup.print (pagePieces renderer styleClass entries) := by
  have items :
      (entries.map fun entry => itemLine renderer.layout (styleClass entry) entry).map
          String.toList =
        (entries.map fun entry => entryPieces renderer.layout (styleClass entry) entry).map
          Markup.print := by
    simp only [List.map_map, Function.comp_def, toList_itemLine]
  rw [String.toList_intercalate, pagePieces, print_joinPieces, List.map_append,
    List.map_append, List.map_append, List.map_append, map_toList_openingLines,
    map_toList_closingLines, items]
  rfl

/-- The page is what its pieces print, if every entry has its style class. -/
theorem page_eq_ok
    {renderer : Renderer}
    {styleClass : Entry → String}
    {entries : List Entry}
    (classed : ∀ entry ∈ entries, entry.kind.renderClass? = some (styleClass entry)) :
    renderer.page entries =
      .ok (String.ofList (Markup.print (pagePieces renderer styleClass entries))) := by
  have items : entries.mapM (item renderer.layout) =
      .ok (entries.map fun entry => itemLine renderer.layout (styleClass entry) entry) := by
    apply mapM_eq_ok_map
    intro entry member
    rw [item, classed entry member]
  rw [Renderer.page, items, ← toList_lines, String.ofList_toList]
  rfl

/-! ### Sound pieces -/

theorem Kind.plain_renderClass?
    {kind : Kind}
    {styleClass : String}
    (classed : kind.renderClass? = some styleClass) :
    Markup.Plain styleClass.toList := by
  cases kind <;> cases classed <;> decide

theorem sound_joinPieces
    {lines : List (List Piece)}
    (sound : ∀ line ∈ lines, ∀ piece ∈ line, piece.Sound) :
    ∀ piece ∈ joinPieces lines, piece.Sound := by
  induction lines with
  | nil => nofun
  | cons line lines induction =>
      rcases List.forall_mem_cons.mp sound with ⟨first, others⟩
      cases lines with
      | nil => simpa [joinPieces] using first
      | cons second lines =>
          rw [joinPieces_cons_cons]
          intro piece member
          rw [List.mem_append, List.mem_cons] at member
          rcases member with inFirst | rfl | later
          · exact first piece inFirst
          · rfl
          · exact induction others piece later

theorem sound_headingPieces
    {title : List Char}
    (plain : Markup.Plain title) :
    ∀ piece ∈ headingPieces title, piece.Sound := by
  intro piece member
  simp only [headingPieces, List.cons_append, List.mem_cons, List.mem_append,
    List.mem_map, List.not_mem_nil, or_false] at member
  rcases member with rfl | ⟨char, inTitle, rfl⟩ | rfl
  · decide
  · exact plain char inTitle
  · decide

theorem sound_openingPieces
    {title : List Char}
    (plain : Markup.Plain title) :
    ∀ line ∈ openingPieces title, ∀ piece ∈ line, piece.Sound := by
  simp only [openingPieces, List.forall_mem_cons]
  exact ⟨by decide, sound_headingPieces plain, by decide, by decide, by decide, nofun⟩

theorem sound_closingPieces : ∀ line ∈ closingPieces, ∀ piece ∈ line, piece.Sound := by
  decide

theorem sound_itemPieces
    {styleClass url : String}
    {shown : List Piece}
    (plainClass : Markup.Plain styleClass.toList)
    (plainUrl : Markup.Plain url.toList)
    (soundShown : ∀ piece ∈ shown, piece.Sound) :
    ∀ piece ∈ itemPieces styleClass url shown, piece.Sound := by
  have plainRest : Markup.Plain " tsd-parent-kind-module".toList := by
    decide
  have itemClass : Markup.Plain (styleClass ++ " tsd-parent-kind-module").toList := by
    rw [String.toList_append]
    exact List.forall_mem_append.mpr ⟨plainClass, plainRest⟩
  have line : (Piece.tag
      ⟨"li", [("class", styleClass ++ " tsd-parent-kind-module")]⟩).Sound := by
    refine ⟨(by decide : Markup.Word "li".toList), ?_⟩
    rintro given (_ | ⟨_, ⟨⟩⟩)
    exact ⟨(by decide : Markup.Word "class".toList), itemClass⟩
  have link : (Piece.tag ⟨"a", [("href", url), ("class", "tsd-kind-icon")]⟩).Sound := by
    refine ⟨(by decide : Markup.Word "a".toList), ?_⟩
    rintro given (_ | ⟨_, _ | ⟨_, ⟨⟩⟩⟩)
    · exact ⟨(by decide : Markup.Word "href".toList), plainUrl⟩
    · decide
  intro piece member
  simp only [itemPieces, List.cons_append, List.mem_cons, List.mem_append,
    List.not_mem_nil, or_false] at member
  rcases member with rfl | rfl | inShown | rfl | rfl
  · exact line
  · exact link
  · exact soundShown piece inShown
  · decide
  · decide

theorem sound_pagePieces
    {renderer : Renderer}
    {styleClass : Entry → String}
    {entries : List Entry}
    (classed : ∀ entry ∈ entries, entry.kind.renderClass? = some (styleClass entry)) :
    ∀ piece ∈ pagePieces renderer styleClass entries, piece.Sound := by
  apply sound_joinPieces
  intro line member
  rw [List.mem_append, List.mem_append, List.mem_map] at member
  rcases member with (above | ⟨entry, listed, rfl⟩) | below
  · exact sound_openingPieces (Markup.plain_escapeChars _) line above
  · have plainUrl :
        Markup.Plain (Markup.escape (entryUrl renderer.layout entry)).toList := by
      rw [Markup.escape, String.toList_ofList]
      exact Markup.plain_escapeChars _
    exact sound_itemPieces (Kind.plain_renderClass? (classed entry listed)) plainUrl
      fun _ => (Markup.plain_escapeChars entry.name.toList).sound_breakPieces
  · exact sound_closingPieces line below

/-! ### What is read back -/

theorem showsEntry_entryPieces
    {layout : PageLayout}
    {styleClass : String}
    {entry : Entry}
    (classed : entry.kind.renderClass? = some styleClass) :
    ShowsEntry layout entry (entryPieces layout styleClass entry) := by
  refine .intro classed (Markup.unescape_escape _)
    (fun _ => Markup.eq_breakTag_of_mem_breakPieces) ?_
  rw [Markup.textOf, Markup.filterMap_char?_breakPieces]
  exact Markup.unescape_escape entry.name

theorem showsPage_pagePieces
    {renderer : Renderer}
    {styleClass : Entry → String}
    {entries : List Entry}
    (classed : ∀ entry ∈ entries, entry.kind.renderClass? = some (styleClass entry)) :
    ShowsPage renderer entries (pagePieces renderer styleClass entries) := by
  refine .intro (Markup.unescape_escape renderer.title) ?_
  rw [List.forall₂_map_right_iff, List.forall₂_same]
  exact fun entry listed => showsEntry_entryPieces (classed entry listed)

/--
If the kind of every entry has a style class there is a page, and it is markup
with the tags of the template and break tags only, from which the title, the
addresses and the names are read back.  Otherwise the first entry whose kind
has no style class is named.
-/
theorem page_shows (renderer : Renderer) (entries : List Entry) :
    ((∀ entry ∈ entries, entry.kind.renderClass?.isSome = true) →
      ∃ fragment pieces,
        renderer.page entries = .ok fragment ∧
        Markup.read? fragment = some pieces ∧
        fragment.toList = Markup.print pieces ∧
        ShowsPage renderer entries pieces) ∧
    ∀ error,
      renderer.page entries = .error error ↔
        ∃ before entry after,
          entries = before ++ entry :: after ∧
          (∀ earlier ∈ before, earlier.kind.renderClass?.isSome = true) ∧
          entry.kind.renderClass? = none ∧
          error = .missingRenderClass entry.name entry.kind := by
  refine ⟨fun classed => ?_, fun _ => page_eq_error_iff⟩
  let styleClass (entry : Entry) : String := entry.kind.renderClass?.getD ""
  have classed : ∀ entry ∈ entries, entry.kind.renderClass? = some (styleClass entry) := by
    intro entry listed
    rcases Option.isSome_iff_exists.mp (classed entry listed) with ⟨given, known⟩
    simp only [styleClass, known, Option.getD_some]
  refine ⟨_, pagePieces renderer styleClass entries, page_eq_ok classed, ?_,
    String.toList_ofList, showsPage_pagePieces classed⟩
  rw [Markup.read?, String.toList_ofList]
  exact Markup.readFrom_print (sound_pagePieces classed)

/-- Names that look like tags, like entities and like attributes. -/
def spelledMarkup : List Entry :=
  [⟨"aB<wbr/></a>", .function, "&lt;"⟩, ⟨"&amp;\" href=\"#", .event, "a/b"⟩]

/-- Names that look like markup are shown, and a kind without a style class is named. -/
theorem page_shows_spelledMarkup :
    let renderer := Renderer.mk .directories "</h3> & more"
    (∃ fragment pieces,
      renderer.page spelledMarkup = .ok fragment ∧
      Markup.read? fragment = some pieces ∧
      fragment.toList = Markup.print pieces ∧
      ShowsPage renderer spelledMarkup pieces) ∧
    renderer.page (spelledMarkup ++ [⟨"x", .parameter, "y"⟩, ⟨"y", .project, "z"⟩]) =
      .error (.missingRenderClass "x" .parameter) := by
  intro renderer
  refine ⟨(page_shows renderer spelledMarkup).1 (by decide), ?_⟩
  apply ((page_shows renderer _).2 _).mpr
  exact ⟨spelledMarkup, ⟨"x", .parameter, "y"⟩, [_], rfl, by decide, rfl, rfl⟩

end Concordance.Index
