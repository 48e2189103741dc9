import Concordance.Proofs.Dump.Portable

/-!
# Tidied dumps

Reading a dump and writing it again leaves out what says nothing: a comment
that is null, a list of children that is empty, an empty text or an empty
list of tags in a comment.  A tag gets a text if it has none.  `tidy` makes
these changes on a plain value, on a symbol and all its descendants, and
changes nothing else.
-/

namespace Concordance.Dump

open Json

/-- Give a tag a text. -/
def tidyTag : Value → Value
  | .object members =>
      .object (if Members.has members "text" then members
        else Members.insert members "text" (.string ""))
  | other => other

/-- Give each of several tags a text. -/
def tidyTags : Value → Value
  | .array items => .array (items.map tidyTag)
  | other => other

/-- A member of a comment, which is dropped if it is an empty text or an empty list of tags. -/
def tidyCommentMember (key : String) (value : Value) : Option Value :=
  if key = "text" then
    if value = .string "" then none else some value
  else if key = "tags" then
    if value = .array [] then none else some (tidyTags value)
  else some value

/-- Drop what says nothing from a comment. -/
def tidyComment : Value → Value
  | .object members => .object (Members.adjust tidyCommentMember members)
  | other => other

mutual

/-- Drop what says nothing from a symbol and its descendants. -/
def tidy : Value → Value
  | .object members => .object (tidyMembers members)
  | other => other

/-- Drop what says nothing from several symbols. -/
def tidyItems : List Value → List Value
  | [] => []
  | item :: items => tidy item :: tidyItems items

/-- A member of a symbol, which is dropped if it is a null comment or an empty list of children. -/
def tidyMember (key : String) : Value → Option Value
  | .array items =>
      if key = "children" then
        if items.isEmpty then none else some (.array (tidyItems items))
      else some (.array items)
  | value =>
      if key = "comment" then
        if value = .null then none else some (tidyComment value)
      else some value

/-- Drop the members that say nothing, and tidy the others. -/
def tidyMembers : List (String × Value) → Members
  | [] => []
  | (key, value) :: members =>
      match tidyMember key value with
      | some kept => (key, kept) :: tidyMembers members
      | none => tidyMembers members

end

theorem tidyItems_eq_map (items : List Value) : tidyItems items = items.map tidy := by
  induction items with
  | nil => rw [tidyItems]; rfl
  | cons item items induction => rw [tidyItems, induction, List.map_cons]

theorem tidyMembers_eq_adjust (members : Members) :
    tidyMembers members = members.adjust tidyMember := by
  rw [Members.adjust]
  induction members with
  | nil => rw [tidyMembers]; rfl
  | cons member members induction =>
      rcases member with ⟨key, value⟩
      rw [tidyMembers, induction, List.filterMap_cons]
      cases tidyMember key value <;> rfl

/-! ### Single members -/

theorem tidyMember_of_ne
    {key : String}
    (notComment : key ≠ "comment")
    (notChildren : key ≠ "children")
    (value : Value) :
    tidyMember key value = some value := by
  cases value <;> simp [tidyMember, notComment, notChildren]

theorem tidyMember_comment (value : Value) :
    tidyMember "comment" value =
      if value = .null then none else some (tidyComment value) := by
  cases value <;> simp [tidyMember, tidyComment]

theorem tidyMember_children (items : List Value) :
    tidyMember "children" (.array items) =
      if items.isEmpty then none else some (.array (items.map tidy)) := by
  rw [tidyMember, if_pos rfl, tidyItems_eq_map]

/-! ### Tidying does not nest deeper -/

theorem nesting_adjust_le
    {change : String → Value → Option Value}
    {members : Members}
    {limit : Nat}
    (shallower : ∀ member ∈ members, ∀ {changed inner},
      change member.1 member.2 = some changed →
      member.2.nesting ≤ inner → changed.nesting ≤ inner)
    (within : (Value.object members).nesting ≤ limit) :
    (Value.object (members.adjust change)).nesting ≤ limit := by
  refine Value.nesting_object_le_of_forall ?_ within
  intro inner within member inAdjusted
  rcases Members.mem_adjust.mp inAdjusted with ⟨value, inMembers, changed⟩
  exact shallower _ inMembers changed (within _ inMembers)

theorem nesting_map_le
    {change : Value → Value}
    {items : List Value}
    {limit : Nat}
    (shallower : ∀ item ∈ items, ∀ {inner},
      item.nesting ≤ inner → (change item).nesting ≤ inner)
    (within : (Value.array items).nesting ≤ limit) :
    (Value.array (items.map change)).nesting ≤ limit := by
  refine Value.nesting_array_le_of_forall ?_ within
  intro inner within changed inChanged
  rcases List.mem_map.mp inChanged with ⟨item, inItems, rfl⟩
  exact shallower item inItems (within item inItems)

theorem nesting_tidyTag_le
    {value : Value}
    {limit : Nat}
    (within : value.nesting ≤ limit) :
    (tidyTag value).nesting ≤ limit := by
  unfold tidyTag
  split
  · refine Value.nesting_object_le_of_forall ?_ within
    intro inner within
    split
    · exact within
    · intro member found
      rcases Members.mem_insert found with same | old
      · rw [same]
        exact Nat.zero_le _
      · exact within member old
  · exact within

theorem nesting_tidyCommentMember_le
    {key : String}
    {value changed : Value}
    (kept : tidyCommentMember key value = some changed)
    {limit : Nat}
    (within : value.nesting ≤ limit) :
    changed.nesting ≤ limit := by
  rw [tidyCommentMember] at kept
  split at kept
  · split at kept <;> cases kept
    exact within
  split at kept
  · split at kept <;> cases kept
    unfold tidyTags
    split
    · exact nesting_map_le (fun _ _ _ => nesting_tidyTag_le) within
    · exact within
  · cases kept
    exact within

theorem nesting_tidyComment_le
    {value : Value}
    {limit : Nat}
    (within : value.nesting ≤ limit) :
    (tidyComment value).nesting ≤ limit := by
  unfold tidyComment
  split
  · exact nesting_adjust_le
      (fun _ _ _ _ kept => nesting_tidyCommentMember_le kept) within
  · exact within

/-- Tidied symbols and tidied members nest no deeper than they did. -/
theorem nesting_tidy_and_tidyMember_le (value : Value) :
    (∀ {limit}, value.nesting ≤ limit → (tidy value).nesting ≤ limit) ∧
      ∀ {key changed limit}, tidyMember key value = some changed →
        value.nesting ≤ limit → changed.nesting ≤ limit := by
  have unchanged {key : String} {value changed : Value}
      (shape : tidyMember key value =
        if key = "comment" then
          if value = .null then none else some (tidyComment value)
        else some value)
      {limit : Nat}
      (kept : tidyMember key value = some changed)
      (within : value.nesting ≤ limit) :
      changed.nesting ≤ limit := by
    rw [shape] at kept
    split at kept
    · split at kept <;> cases kept
      exact nesting_tidyComment_le within
    · cases kept
      exact within
  induction value with
  | array items induction =>
      constructor
      · intro limit within
        rw [tidy]
        exact within
        nofun
      · intro key changed limit kept within
        rw [tidyMember, tidyItems_eq_map] at kept
        split at kept
        · split at kept <;> cases kept
          exact nesting_map_le (fun item inItems => (induction item inItems).1)
            within
        · cases kept
          exact within
  | object members induction =>
      constructor
      · intro limit within
        rw [tidy, tidyMembers_eq_adjust]
        exact nesting_adjust_le
          (fun member inMembers => (induction member inMembers).2) within
      · intro key changed limit
        exact unchanged (by rw [tidyMember]; nofun)
  | _ =>
      constructor
      · intro limit within
        rw [tidy]
        exact within
        nofun
      · intro key changed limit
        exact unchanged (by rw [tidyMember]; nofun)

theorem nesting_tidy_le
    {value : Value}
    {limit : Nat}
    (within : value.nesting ≤ limit) :
    (tidy value).nesting ≤ limit :=
  (nesting_tidy_and_tidyMember_le value).1 within

end Concordance.Dump
