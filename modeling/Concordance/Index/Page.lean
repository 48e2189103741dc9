import Concordance.Index.Entry
import Concordance.Markup

/-!
# The index as a page fragment

The fragment is a panel with a title and one list item per entry.  An item
links to the page of its symbol: a page of its own for some kinds, otherwise
a place on the page of its parent.  The layout says whether pages lie in one
directory or in one directory per sort of page.

`page` fails only for an entry whose kind has no style class.
-/

namespace Concordance.Index

/-- Where the pages of a site lie. -/
inductive PageLayout where
  | flat
  | directories
  deriving DecidableEq, Repr

/-- How an index is shown. -/
structure Renderer where
  layout : PageLayout
  title : String
  deriving DecidableEq, Repr

/-- The title of an index that is given none. -/
def defaultTitle : String := "Index"

/-- Whether a character may stand in a page name. -/
def isPageNameChar (char : Char) : Bool :=
  char.isAlphanum || char == '_'

/--
A name as part of a page name: everything but ASCII letters, digits and
underscores becomes an underscore.
-/
def sanitize (name : String) : String :=
  String.ofList (name.toList.map fun char =>
    if isPageNameChar char then char else '_')

/-- The page, or the place on a page, where a symbol is documented. -/
def pageName (entry : Entry) : String :=
  let parent := sanitize entry.parentName
  if entry.kind.hasOwnPage then parent ++ "." ++ entry.name ++ ".html"
  else parent ++ ".html#" ++ entry.name

/-- The address to which an entry links. -/
def entryUrl (layout : PageLayout) (entry : Entry) : String :=
  match layout with
  | .flat => pageName entry
  | .directories => entry.kind.pageDirectory ++ "/" ++ pageName entry

/-- The list item of an entry whose style class is known. -/
def itemLine (layout : PageLayout) (styleClass : String) (entry : Entry) : String :=
  "<li class=\"" ++ styleClass ++ " tsd-parent-kind-module\"><a href=\""
    ++ Markup.escape (entryUrl layout entry)
    ++ "\" class=\"tsd-kind-icon\">"
    ++ Markup.wordBreak (Markup.escape entry.name) ++ "</a></li>"

/-- The list item of an entry. -/
def item (layout : PageLayout) (entry : Entry) : Except IndexError String :=
  match entry.kind.renderClass? with
  | some styleClass => .ok (itemLine layout styleClass entry)
  | none => .error (.missingRenderClass entry.name entry.kind)

/-- The lines above the items. -/
def openingLines (title : String) : List String :=
  ["<section class=\"tsd-panel tsd-index-panel\">",
    "<h3>" ++ Markup.escape title ++ "</h3>",
    "<div class=\"tsd-index-content\">",
    "<section class=\"tsd-index-section\">",
    "<ul class=\"tsd-index-list\">"]

/-- The lines below the items. -/
def closingLines : List String :=
  ["</ul>", "</section>", "</div>", "</section>"]

/-- The fragment that shows the given entries in the given order. -/
def Renderer.page
    (renderer : Renderer)
    (entries : List Entry) : Except IndexError String := do
  let items ← entries.mapM (item renderer.layout)
  pure ("\n".intercalate
    (openingLines renderer.title ++ items ++ closingLines))

end Concordance.Index
