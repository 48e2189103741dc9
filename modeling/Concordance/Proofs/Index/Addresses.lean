import Concordance.Index.Page
import Concordance.Proofs.Text.Search

/-!
# Which entries share an address

The address of an entry is read from the left: the directory ends at the first
slash, the name of the parent at the first point behind it, since neither a
directory nor a sanitised name has these characters.  What follows the point
tells the name of the entry, if it is known whether the entry has a page of its
own (`pageName_eq_iff_of_same`).  If it is not known, as in the flat layout, a
page `html#rest` of its own and a place `rest.html` on the page of the parent
have one address (`pageName_eq_iff_of_different`).
-/

namespace Concordance

/-! ### Directories -/

theorem Kind.not_mem_pageDirectory (kind : Kind) : '/' ∉ kind.pageDirectory.toList := by
  cases kind <;> decide

/-- The directory of a page tells whether it is a page of a single symbol. -/
theorem Kind.hasOwnPage_eq_of_pageDirectory {first second : Kind}
    (same : first.pageDirectory = second.pageDirectory) :
    first.hasOwnPage = second.hasOwnPage := by
  have told (kind : Kind) : kind.hasOwnPage = (kind.pageDirectory != "modules") := by
    cases kind <;> decide
  rw [told, told, same]

namespace Index

/-! ### The parent in front of the point -/

theorem not_mem_sanitize {char : Char} (other : isPageNameChar char = false) (name : String) :
    char ∉ (sanitize name).toList := by
  rw [sanitize, String.toList_ofList, List.mem_map]
  rintro ⟨given, -, rfl⟩
  split at other
  · rename_i allowed
    rw [allowed] at other
    cases other
  · cases other

/-- What follows the parent and the point in the name of a page. -/
def pageTail (entry : Entry) : String :=
  if entry.kind.hasOwnPage then entry.name ++ ".html" else "html#" ++ entry.name

theorem toList_pageName (entry : Entry) :
    (pageName entry).toList =
      (sanitize entry.parentName).toList ++ '.' :: (pageTail entry).toList := by
  rw [pageName, pageTail]
  split <;> simp

theorem pageName_eq_iff {first second : Entry} :
    pageName first = pageName second ↔
      sanitize first.parentName = sanitize second.parentName ∧
        pageTail first = pageTail second := by
  have point (name : String) : '.' ∉ (sanitize name).toList :=
    not_mem_sanitize (by decide) name
  rw [← String.toList_inj, toList_pageName, toList_pageName,
    Text.append_cons_inj_iff (point _) (point _), String.toList_inj, String.toList_inj]

/-! ### The symbol behind the point -/

theorem pageTail_eq_iff_of_same
    {first second : Entry}
    (same : first.kind.hasOwnPage = second.kind.hasOwnPage) :
    pageTail first = pageTail second ↔ first.name = second.name := by
  rw [pageTail, pageTail, same]
  split
  · rw [String.append_left_inj]
  · rw [String.append_right_inj]

/-- An ending that begins with a point is no part of a beginning without one. -/
theorem append_html_eq_iff {page place : List Char} :
    page ++ ".html".toList = "html#".toList ++ place ↔
      ∃ rest, page = "html#".toList ++ rest ∧ place = rest ++ ".html".toList := by
  rw [List.append_eq_append_iff]
  constructor
  · rintro (⟨gap, isStart, isEnd⟩ | ⟨gap, isPage, isPlace⟩)
    · cases gap with
      | nil =>
          rw [List.append_nil] at isStart
          exact ⟨[], by rw [isStart, List.append_nil], isEnd.symm⟩
      | cons first gap =>
          have isPoint : first = '.' := (List.cons.inj isEnd).1.symm
          have inStart : first ∈ "html#".toList := by
            rw [isStart]
            simp
          rw [isPoint] at inStart
          exact absurd inStart (by decide)
    · exact ⟨gap, isPage, isPlace⟩
  · rintro ⟨rest, isPage, isPlace⟩
    exact .inr ⟨rest, isPage, isPlace⟩

theorem pageTail_eq_iff_of_different
    {page place : Entry}
    (own : page.kind.hasOwnPage = true)
    (shared : place.kind.hasOwnPage = false) :
    pageTail page = pageTail place ↔
      ∃ rest, page.name = "html#" ++ rest ∧ place.name = rest ++ ".html" := by
  rw [pageTail, pageTail, if_pos own, if_neg (Bool.eq_false_iff.mp shared), ← String.toList_inj,
    String.toList_append, String.toList_append, append_html_eq_iff]
  constructor
  · rintro ⟨rest, isPage, isPlace⟩
    refine ⟨String.ofList rest, String.toList_inj.mp ?_, String.toList_inj.mp ?_⟩
    · simpa using isPage
    · simpa using isPlace
  · rintro ⟨rest, isPage, isPlace⟩
    refine ⟨rest.toList, ?_, ?_⟩
    · rw [isPage, String.toList_append]
    · rw [isPlace, String.toList_append]

/-! ### Addresses -/

theorem entryUrl_directories_eq_iff {first second : Entry} :
    entryUrl .directories first = entryUrl .directories second ↔
      first.kind.pageDirectory = second.kind.pageDirectory ∧
        pageName first = pageName second := by
  have written (entry : Entry) :
      (entryUrl .directories entry).toList =
        entry.kind.pageDirectory.toList ++ '/' :: (pageName entry).toList := by
    rw [entryUrl, String.toList_append, String.toList_append, List.append_assoc]
    rfl
  rw [← String.toList_inj, written, written,
    Text.append_cons_inj_iff first.kind.not_mem_pageDirectory second.kind.not_mem_pageDirectory,
    String.toList_inj, String.toList_inj]

/--
In separate directories two entries have one address exactly if directory,
sanitised parent and name agree.  In the flat layout this holds without the
directory among the pages of their own and among the places on a parent's page;
a page of its own and a place have one address only if the parents agree and
the page is called `html#` and some text, which the place has in front of
`.html`.
-/
theorem entryUrl_eq_iff (first second : Entry) :
    (entryUrl .directories first = entryUrl .directories second ↔
      first.kind.pageDirectory = second.kind.pageDirectory ∧
        sanitize first.parentName = sanitize second.parentName ∧
        first.name = second.name) ∧
    (first.kind.hasOwnPage = second.kind.hasOwnPage →
      (entryUrl .flat first = entryUrl .flat second ↔
        sanitize first.parentName = sanitize second.parentName ∧
          first.name = second.name)) ∧
    (first.kind.hasOwnPage = true → second.kind.hasOwnPage = false →
      (entryUrl .flat first = entryUrl .flat second ↔
        sanitize first.parentName = sanitize second.parentName ∧
          ∃ rest, first.name = "html#" ++ rest ∧ second.name = rest ++ ".html") ∧
      ('#' ∉ first.name.toList → entryUrl .flat first ≠ entryUrl .flat second)) := by
  have flat : entryUrl .flat first = entryUrl .flat second ↔
      sanitize first.parentName = sanitize second.parentName ∧
        pageTail first = pageTail second :=
    pageName_eq_iff
  refine ⟨?_, ?_, ?_⟩
  · rw [entryUrl_directories_eq_iff, pageName_eq_iff]
    constructor
    · rintro ⟨sameDirectory, sameParent, sameTail⟩
      have sameOwn := Kind.hasOwnPage_eq_of_pageDirectory sameDirectory
      exact ⟨sameDirectory, sameParent, (pageTail_eq_iff_of_same sameOwn).mp sameTail⟩
    · rintro ⟨sameDirectory, sameParent, sameName⟩
      have sameOwn := Kind.hasOwnPage_eq_of_pageDirectory sameDirectory
      exact ⟨sameDirectory, sameParent, (pageTail_eq_iff_of_same sameOwn).mpr sameName⟩
  · intro sameOwn
    rw [flat, pageTail_eq_iff_of_same sameOwn]
  · intro own shared
    rw [flat, pageTail_eq_iff_of_different own shared]
    refine ⟨Iff.rfl, fun noHash same => ?_⟩
    rcases flat.mp same with ⟨-, sameTail⟩
    rcases (pageTail_eq_iff_of_different own shared).mp sameTail with ⟨rest, isPage, -⟩
    apply noHash
    rw [isPage, String.toList_append]
    simp

/-- A class, a function and a variable of one module, of which the first two share a page. -/
def lookalikes : Entry × Entry × Entry :=
  (⟨"html#max", .classType, "my.math"⟩, ⟨"max.html", .function, "my-math"⟩,
    ⟨"max", .variableBinding, "my-math"⟩)

/-- A class and a function can have one address in the flat layout, and only there. -/
theorem entryUrl_eq_iff_lookalikes :
    entryUrl .flat lookalikes.1 = entryUrl .flat lookalikes.2.1 ∧
      entryUrl .directories lookalikes.1 ≠ entryUrl .directories lookalikes.2.1 ∧
      entryUrl .flat lookalikes.2.1 ≠ entryUrl .flat lookalikes.2.2 ∧
      entryUrl .flat { lookalikes.1 with name := "max" } ≠ entryUrl .flat lookalikes.2.1 := by
  refine ⟨?_, ?_, ?_, ?_⟩
  · refine ((entryUrl_eq_iff lookalikes.1 lookalikes.2.1).2.2 rfl rfl).1.mpr ⟨by decide +kernel, ?_⟩
    exact ⟨"max", by decide +kernel, by decide +kernel⟩
  · intro same
    have told := (entryUrl_eq_iff lookalikes.1 lookalikes.2.1).1.mp same
    exact absurd told.1 (by decide +kernel)
  · intro same
    have told := ((entryUrl_eq_iff lookalikes.2.1 lookalikes.2.2).2.1 rfl).mp same
    exact absurd told.2 (by decide +kernel)
  · exact ((entryUrl_eq_iff { lookalikes.1 with name := "max" } lookalikes.2.1).2.2 rfl rfl).2
      (by decide +kernel)

end Index

end Concordance
