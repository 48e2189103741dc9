import Concordance.Json.Mismatch
import Concordance.Tree

/-!
# The compiler's dump

A reflection compiler writes a project as one JSON document, an object for
each symbol.  Of such an object this library interprets the members `name`,
`kind`, `comment` and `children`; of a comment `text` and `tags`; of a tag
`tag` and `text`.  Each of these stands at most once.  All other members are
kept as they are, the last one of several with the same key.

Reading goes through the document from front to back and reports the first
problem it meets; that a member is missing shows at the closing brace.  The
project's readme is a member of the root, and belongs to the tree once the
dump is read.

Writing leaves out an absent comment, an empty list of children, and an
empty text or list of tags of a comment.
-/

namespace Concordance.Dump

open Json

/-! ### Reading -/

/-- Read a text. -/
def readText : Document → Except Problem String
  | .string text => .ok text
  | other => .error (other.mistaken "a string")

/-- Read a kind code: a whole number of 32 bits. -/
def readKindCode : Document → Except Problem UInt32
  | .number (.integer value) =>
      if 0 ≤ value ∧ value < (UInt32.size : Int) then .ok (UInt32.ofNat value.toNat)
      else
        .error (.misshapen
          (.invalidValue (.number (.integer value)) "u32"))
  | other => .error (other.mistaken "u32")

/-- Fail if a container was not closed. -/
def requireClosed : Option Fault → Except Problem Unit
  | some fault => .error (.unreadable fault)
  | none => .ok ()

/-- Read the value of a member that is not interpreted. -/
def readExtra (document : Document) : Except Problem Value :=
  document.value.mapError .unreadable

/-- Fail if a member of this name has been read before. -/
def requireNew {α : Type} (field : String) : Option α → Except Problem Unit
  | some _ => .error (.misshapen (.duplicateField field))
  | none => .ok ()

/-- The value of a member that must not be missing. -/
def require {α : Type} (field : String) : Option α → Except Problem α
  | some value => .ok value
  | none => .error (.misshapen (.missingField field))

/-- The members of a tag that have been read. -/
structure TagFields where
  name : Option String := none
  text : Option String := none
  extra : Members := []

/-- Read one member of a tag. -/
def TagFields.read
    (fields : TagFields)
    (key : String)
    (document : Document) : Except Problem TagFields :=
  if key = "tag" then do
    requireNew key fields.name
    let name ← readText document
    pure { fields with name := some name }
  else if key = "text" then do
    requireNew key fields.text
    let text ← readText document
    pure { fields with text := some text }
  else do
    let value ← readExtra document
    pure { fields with extra := fields.extra.insert key value }

/-- Read a tag. -/
def readTag : Document → Except Problem Tag
  | .object members unclosed => do
      let fields ← members.foldlM
        (fun fields member => TagFields.read fields member.1 member.2) {}
      requireClosed unclosed
      let name ← require "tag" fields.name
      pure ⟨name, fields.text.getD "", fields.extra⟩
  | .deepObject => .error (.unreadable .malformed)
  | other => .error (other.mistaken "struct RawTag")

/-- Read a list of tags. -/
def readTags : Document → Except Problem (List Tag)
  | .array items unclosed => do
      let tags ← items.mapM readTag
      requireClosed unclosed
      pure tags
  | .deepArray => .error (.unreadable .malformed)
  | other => .error (other.mistaken "a sequence")

/-- The members of a comment that have been read. -/
structure CommentFields where
  text : Option String := none
  tags : Option (List Tag) := none
  extra : Members := []

/-- Read one member of a comment. -/
def CommentFields.read
    (fields : CommentFields)
    (key : String)
    (document : Document) : Except Problem CommentFields :=
  if key = "text" then do
    requireNew key fields.text
    let text ← readText document
    pure { fields with text := some text }
  else if key = "tags" then do
    requireNew key fields.tags
    let tags ← readTags document
    pure { fields with tags := some tags }
  else do
    let value ← readExtra document
    pure { fields with extra := fields.extra.insert key value }

/-- Read a comment, which may be null. -/
def readComment : Document → Except Problem (Option Comment)
  | .null => .ok none
  | .object members unclosed => do
      let fields ← members.foldlM
        (fun fields member => CommentFields.read fields member.1 member.2) {}
      requireClosed unclosed
      pure (some ⟨fields.text.getD "", fields.tags.getD [], fields.extra⟩)
  | .deepObject => .error (.unreadable .malformed)
  | other => .error (other.mistaken "struct RawComment")

/-- The members of a symbol that have been read. -/
structure SymbolFields where
  name : Option String := none
  kindCode : Option UInt32 := none
  comment : Option (Option Comment) := none
  children : Option (List Outline) := none
  extra : Members := []

/-- The symbol and the children given by its members. -/
def SymbolFields.outline (fields : SymbolFields) : Except Problem Outline := do
  let name ← require "name" fields.name
  let kindCode ← require "kind" fields.kindCode
  pure (.node ⟨name, kindCode, fields.comment.join, fields.extra⟩
    (fields.children.getD []))

mutual

/-- Read a symbol with its descendants. -/
def readOutline : Document → Except Problem Outline
  | .object members unclosed => do
      let fields ← readFields {} members
      requireClosed unclosed
      fields.outline
  | .deepObject => .error (.unreadable .malformed)
  | other => .error (other.mistaken "struct RawReflection")

/-- Read the members of a symbol. -/
def readFields (fields : SymbolFields) :
    List (String × Document) → Except Problem SymbolFields
  | [] => .ok fields
  | (key, document) :: members =>
      if key = "name" then do
        requireNew key fields.name
        let name ← readText document
        readFields { fields with name := some name } members
      else if key = "kind" then do
        requireNew key fields.kindCode
        let kindCode ← readKindCode document
        readFields { fields with kindCode := some kindCode } members
      else if key = "comment" then do
        requireNew key fields.comment
        let comment ← readComment document
        readFields { fields with comment := some comment } members
      else if key = "children" then do
        requireNew key fields.children
        let children ← readChildren document
        readFields { fields with children := some children } members
      else do
        let value ← readExtra document
        readFields { fields with extra := fields.extra.insert key value } members

/-- Read the children of a symbol. -/
def readChildren : Document → Except Problem (List Outline)
  | .array items unclosed => do
      let outlines ← readOutlines items
      requireClosed unclosed
      pure outlines
  | .deepArray => .error (.unreadable .malformed)
  | other => .error (other.mistaken "a sequence")

/-- Read several symbols. -/
def readOutlines : List Document → Except Problem (List Outline)
  | [] => .ok []
  | document :: documents => do
      let outline ← readOutline document
      let outlines ← readOutlines documents
      pure (outline :: outlines)

end

/-- The key of the readme in the root's object. -/
def readmeKey : String := "readme"

/-- Take the readme out of the root, where it stands if it is a text. -/
def takeReadme : Outline → Outline × Option String
  | .node symbol children =>
      match symbol.extra.find? readmeKey with
      | some (.string text) =>
          (.node { symbol with extra := symbol.extra.erase readmeKey } children,
            some text)
      | _ => (.node symbol children, none)

/-- Read a dump as a tree whose nodes are numbered in the order in which their objects open. -/
def read (text : String) : Except Problem Tree := do
  let (document, trailing) := Document.read text
  let whole ← readOutline document
  requireClosed trailing
  let (outline, readme) := takeReadme whole
  pure (Tree.ofOutline outline readme)

/-! ### Writing -/

/-- A tag as a JSON object. -/
def tagValue (tag : Tag) : Value :=
  .object ([("tag", .string tag.name), ("text", .string tag.text)] ++ tag.extra)

/-- A comment as a JSON object. -/
def commentValue (comment : Comment) : Value :=
  .object <|
    (if comment.text.isEmpty then [] else [("text", .string comment.text)])
      ++ (if comment.tags.isEmpty then []
          else [("tags", .array (comment.tags.map tagValue))])
      ++ comment.extra

/-- The members of a symbol that stand before its children. -/
def leadingMembers (symbol : Symbol) : Members :=
  [("name", .string symbol.name),
    ("kind", .number (.integer symbol.kindCode.toNat))]
    ++ (match symbol.comment with
        | some comment => [("comment", commentValue comment)]
        | none => [])

mutual

/-- A symbol with its descendants as a JSON object. -/
def outlineValue : Outline → Value
  | .node symbol children =>
      .object <| leadingMembers symbol ++ childrenMember children ++ symbol.extra

/-- The member for the children, which is left out if there are none. -/
def childrenMember : List Outline → Members
  | [] => []
  | outline :: outlines =>
      [("children", .array (outlineValue outline :: outlineValues outlines))]

/-- Several symbols as JSON objects. -/
def outlineValues : List Outline → List Value
  | [] => []
  | outline :: outlines => outlineValue outline :: outlineValues outlines

end

/-- Put a readme into the root, in place of a member of that name. -/
def putReadme (readme : Option String) : Outline → Outline
  | .node symbol children =>
      match readme with
      | some text =>
          .node
            { symbol with
              extra := symbol.extra.insert readmeKey (.string text) }
            children
      | none => .node symbol children

/-- The text of a tree's dump. -/
def write (tree : Tree) : String :=
  (outlineValue (putReadme tree.readme tree.outline)).pretty

end Concordance.Dump
