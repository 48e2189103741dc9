import Concordance.Dump
import Concordance.Proofs.Json.Documents
import Concordance.Proofs.Tree.Layout

/-!
# What a dump can carry

A symbol is `Portable` if the members it carries along uninterpreted can
stand next to those that the dump interprets: none of them takes the key of
an interpreted member, and their numbers are whole.  That their objects are
canonical is no restriction on what they say: extra members are a map by key,
and every value has a canonical form (`Value.canonical_sorted`).

The objects that are written for portable symbols repeat no key and have
whole numbers only, which is all that a printer and a reader ask for.
-/

namespace Concordance

open Json

/-! ### Values that are carried over faithfully -/

/-- Whether a value is read as it was written, up to the order of members. -/
structure Json.Value.Faithful (value : Value) : Prop where
  integral : value.Integral
  unrepeated : value.Unrepeated

theorem Json.Value.faithful_string (text : String) : (Value.string text).Faithful :=
  ⟨.string text, .string text⟩

theorem Json.Value.faithful_array
    {items : List Value}
    (each : ∀ item ∈ items, item.Faithful) :
    (Value.array items).Faithful where
  integral := .array fun item member => (each item member).integral
  unrepeated := .array fun item member => (each item member).unrepeated

theorem Json.Value.faithful_object
    {members : Members}
    (distinct : members.Distinct)
    (each : ∀ member ∈ members, member.2.Faithful) :
    (Value.object members).Faithful where
  integral := .object fun member inMembers => (each member inMembers).integral
  unrepeated :=
    .object distinct fun member inMembers => (each member inMembers).unrepeated

/-! ### Members that are carried along -/

/-- Whether members can stand next to interpreted ones with the given keys. -/
structure Json.Members.Portable (taken : List String) (members : Members) : Prop where
  canonical : (Value.object members).Canonical
  integral : (Value.object members).Integral
  free : ∀ key ∈ taken, members.find? key = none

theorem Json.Members.Portable.sorted
    {taken : List String}
    {members : Members}
    (portable : members.Portable taken) :
    members.Sorted :=
  portable.canonical.members_sorted

theorem Json.Members.Portable.key_not_mem
    {taken : List String}
    {members : Members}
    (portable : members.Portable taken)
    {member : String × Value}
    (inMembers : member ∈ members) :
    member.1 ∉ taken := by
  rcases member with ⟨key, value⟩
  intro inTaken
  have found := portable.sorted.find?_eq_some inMembers
  rw [portable.free key inTaken] at found
  cases found

theorem Json.Members.Portable.insert
    {taken : List String}
    {members : Members}
    (portable : members.Portable taken)
    {key : String}
    (kept : key ∉ taken)
    (text : String) :
    (members.insert key (.string text)).Portable taken where
  canonical := by
    refine .object (portable.sorted.insert key _) ?_
    intro member found
    rcases Members.mem_insert found with same | old
    · rw [same]
      exact .string text
    · exact portable.canonical.member member old
  integral := by
    refine .object ?_
    intro member found
    rcases Members.mem_insert found with same | old
    · rw [same]
      exact .string text
    · exact portable.integral.member member old
  free := by
    intro other inTaken
    rw [Members.find?_insert_of_ne]
    · exact portable.free other inTaken
    · intro same
      rw [same] at inTaken
      exact kept inTaken

/-- An object of interpreted members and portable ones behind them is faithful. -/
theorem Json.Members.Portable.faithful_object
    {taken : List String}
    {extra : Members}
    (portable : extra.Portable taken)
    {leading : Members}
    (distinct : leading.Distinct)
    (interpreted : ∀ member ∈ leading, member.1 ∈ taken)
    (each : ∀ member ∈ leading, member.2.Faithful) :
    (Value.object (leading ++ extra)).Faithful := by
  apply Value.faithful_object
  · exact Members.distinct_append distinct portable.sorted.distinct interpreted
      fun _ inExtra => portable.key_not_mem inExtra
  · intro member inMembers
    rcases List.mem_append.mp inMembers with inLeading | inExtra
    · exact each member inLeading
    · constructor
      · exact portable.integral.member member inExtra
      · exact (portable.canonical.member member inExtra).unrepeated

/-! ### Portable symbols -/

namespace Dump

/-- The keys of a tag that are interpreted. -/
def tagKeys : List String := ["tag", "text"]

/-- The keys of a comment that are interpreted. -/
def commentKeys : List String := ["text", "tags"]

/-- The keys of a symbol that are interpreted. -/
def symbolKeys : List String := ["name", "kind", "comment", "children"]

end Dump

open Dump

/-- Whether a dump can carry a tag. -/
def Tag.Portable (tag : Tag) : Prop :=
  tag.extra.Portable tagKeys

/-- Whether a dump can carry a comment. -/
structure Comment.Portable (comment : Comment) : Prop where
  tags : ∀ tag ∈ comment.tags, tag.Portable
  extra : comment.extra.Portable commentKeys

/-- Whether a dump can carry a symbol. -/
structure Symbol.Portable (symbol : Symbol) : Prop where
  comment : ∀ comment ∈ symbol.comment, comment.Portable
  extra : symbol.extra.Portable symbolKeys

theorem Tag.Portable.faithful
    {tag : Tag}
    (portable : tag.Portable) :
    (tagValue tag).Faithful := by
  apply Members.Portable.faithful_object portable
  · simp [Members.Distinct]
  · simp [tagKeys]
  · intro member inMembers
    simp only [List.mem_cons, List.not_mem_nil, or_false] at inMembers
    rcases inMembers with rfl | rfl <;> exact Value.faithful_string _

namespace Dump

/-- The member for the text of a comment, which is left out if it is empty. -/
def textMember (text : String) : Members :=
  if text.isEmpty then [] else [("text", .string text)]

/-- The member for the tags of a comment, which is left out if there are none. -/
def tagsMember (tags : List Tag) : Members :=
  if tags.isEmpty then [] else [("tags", .array (tags.map tagValue))]

theorem commentValue_eq (comment : Comment) :
    commentValue comment =
      .object (textMember comment.text ++ tagsMember comment.tags
        ++ comment.extra) := rfl

theorem distinct_textMember_tagsMember (text : String) (tags : List Tag) :
    Members.Distinct (textMember text ++ tagsMember tags) := by
  rw [Members.Distinct, textMember, tagsMember]
  split <;> split <;> simp

theorem mem_textMember_tagsMember
    {text : String}
    {tags : List Tag}
    {member : String × Value}
    (found : member ∈ textMember text ++ tagsMember tags) :
    member = ("text", .string text) ∨
      member = ("tags", .array (tags.map tagValue)) := by
  rcases List.mem_append.mp found with inText | inTags
  · rw [textMember] at inText
    split at inText
    · cases inText
    · exact .inl (List.mem_singleton.mp inText)
  · rw [tagsMember] at inTags
    split at inTags
    · cases inTags
    · exact .inr (List.mem_singleton.mp inTags)

theorem textMember_tagsMember_interpreted
    {text : String}
    {tags : List Tag}
    {member : String × Value}
    (found : member ∈ textMember text ++ tagsMember tags) :
    member.1 ∈ commentKeys := by
  rcases mem_textMember_tagsMember found with rfl | rfl <;> simp [commentKeys]

end Dump

theorem Comment.Portable.faithful
    {comment : Comment}
    (portable : comment.Portable) :
    (commentValue comment).Faithful := by
  rw [commentValue_eq]
  apply portable.extra.faithful_object (distinct_textMember_tagsMember _ _)
  · intro member inMembers
    exact textMember_tagsMember_interpreted inMembers
  · intro member inMembers
    rcases mem_textMember_tagsMember inMembers with rfl | rfl
    · exact Value.faithful_string _
    · apply Value.faithful_array
      intro item inItems
      rcases List.mem_map.mp inItems with ⟨tag, inList, rfl⟩
      exact (portable.tags tag inList).faithful

theorem faithful_kindCode (code : UInt32) :
    (Value.number (.integer code.toNat)).Faithful where
  integral := by
    have below := code.toNat_lt
    refine .number ?_
    constructor <;> omega
  unrepeated := .number _

/-! ### Portable outlines -/

/-- Induction over an outline, with its children as they stand in it. -/
@[induction_eliminator]
theorem Outline.induction
    {motive : Outline → Prop}
    (node : ∀ symbol children,
      (∀ child ∈ children, motive child) → motive (.node symbol children)) :
    ∀ outline, motive outline :=
  @Outline.rec motive
    (fun outlines => ∀ outline ∈ outlines, motive outline)
    node nofun
    (fun _ _ first rest => List.forall_mem_cons.mpr ⟨first, rest⟩)

theorem Outline.mem_symbolsOf {outlines : List Outline} {symbol : Symbol} :
    symbol ∈ symbolsOf outlines ↔
      ∃ outline ∈ outlines, symbol ∈ outline.symbols := by
  induction outlines with
  | nil => simp [symbolsOf]
  | cons outline outlines induction =>
      rw [symbolsOf, List.mem_append, induction, List.exists_mem_cons_iff]

/-- Whether a dump can carry every symbol of an outline. -/
def Outline.Portable (outline : Outline) : Prop :=
  ∀ symbol ∈ outline.symbols, symbol.Portable

theorem Outline.portable_node {symbol : Symbol} {children : List Outline} :
    (Outline.node symbol children).Portable ↔
      symbol.Portable ∧ ∀ child ∈ children, child.Portable := by
  rw [Outline.Portable, symbols, List.forall_mem_cons]
  refine and_congr_right fun _ => ?_
  constructor
  · intro each child inChildren inner member
    exact each inner (mem_symbolsOf.mpr ⟨child, inChildren, member⟩)
  · intro each inner member
    rcases mem_symbolsOf.mp member with ⟨child, inChildren, below⟩
    exact each child inChildren inner below

theorem Outline.Portable.sorted_extra
    {outline : Outline}
    (portable : outline.Portable) :
    outline.symbol.extra.Sorted := by
  rcases outline with ⟨symbol, children⟩
  exact (Outline.portable_node.mp portable).1.extra.sorted

namespace Dump

theorem outlineValues_eq_map (outlines : List Outline) :
    outlineValues outlines = outlines.map outlineValue := by
  induction outlines with
  | nil => rfl
  | cons outline outlines induction =>
      rw [outlineValues, induction, List.map_cons]

theorem childrenMember_eq (children : List Outline) :
    childrenMember children =
      if children.isEmpty then []
      else [("children", .array (children.map outlineValue))] := by
  cases children with
  | nil => rfl
  | cons child children =>
      rw [childrenMember, outlineValues_eq_map]
      rfl

/-- The member for a comment, which is left out if there is none. -/
def commentMember : Option Comment → Members
  | some comment => [("comment", commentValue comment)]
  | none => []

/-- The members of a symbol that are interpreted, as they are written. -/
def interpretedMembers (symbol : Symbol) (children : List Outline) : Members :=
  [("name", .string symbol.name),
    ("kind", .number (.integer symbol.kindCode.toNat))]
    ++ commentMember symbol.comment
    ++ childrenMember children

theorem outlineValue_eq (symbol : Symbol) (children : List Outline) :
    outlineValue (.node symbol children) =
      .object (interpretedMembers symbol children ++ symbol.extra) := by
  rw [outlineValue, leadingMembers, interpretedMembers]
  cases symbol.comment <;> rfl

theorem distinct_interpretedMembers
    (symbol : Symbol)
    (children : List Outline) :
    (interpretedMembers symbol children).Distinct := by
  rw [Members.Distinct, interpretedMembers, childrenMember_eq]
  cases symbol.comment <;> split <;> simp [commentMember]

theorem mem_interpretedMembers
    {symbol : Symbol}
    {children : List Outline}
    {member : String × Value}
    (found : member ∈ interpretedMembers symbol children) :
    member = ("name", .string symbol.name) ∨
      member = ("kind", .number (.integer symbol.kindCode.toNat)) ∨
      (∃ comment ∈ symbol.comment, member = ("comment", commentValue comment)) ∨
      member = ("children", .array (children.map outlineValue)) := by
  rw [interpretedMembers, childrenMember_eq] at found
  rcases List.mem_append.mp found with inLeading | inChildren
  · rcases List.mem_append.mp inLeading with inFixed | inComment
    · rcases List.mem_cons.mp inFixed with same | inRest
      · exact .inl same
      · exact .inr (.inl (List.mem_singleton.mp inRest))
    · cases given : symbol.comment with
      | none =>
          rw [given] at inComment
          cases inComment
      | some comment =>
          rw [given] at inComment
          exact .inr (.inr (.inl ⟨comment, rfl, List.mem_singleton.mp inComment⟩))
  · split at inChildren
    · cases inChildren
    · exact .inr (.inr (.inr (List.mem_singleton.mp inChildren)))

theorem interpretedMembers_interpreted
    {symbol : Symbol}
    {children : List Outline}
    {member : String × Value}
    (found : member ∈ interpretedMembers symbol children) :
    member.1 ∈ symbolKeys := by
  rcases mem_interpretedMembers found with rfl | rfl | ⟨_, -, rfl⟩ | rfl <;>
    simp [symbolKeys]

end Dump

theorem Outline.Portable.faithful
    {outline : Outline}
    (portable : outline.Portable) :
    (outlineValue outline).Faithful := by
  induction outline with
  | node symbol children induction =>
      rcases Outline.portable_node.mp portable with ⟨here, below⟩
      rw [outlineValue_eq]
      apply here.extra.faithful_object (distinct_interpretedMembers symbol children)
      · intro member inMembers
        exact interpretedMembers_interpreted inMembers
      · intro member inMembers
        rcases mem_interpretedMembers inMembers with
          rfl | rfl | ⟨comment, given, rfl⟩ | rfl
        · exact Value.faithful_string _
        · exact faithful_kindCode _
        · exact (here.comment comment given).faithful
        · apply Value.faithful_array
          intro item inItems
          rcases List.mem_map.mp inItems with ⟨child, inChildren, rfl⟩
          exact induction child inChildren (below child inChildren)

end Concordance
