import Concordance.Proofs.Dump.Reading
import Concordance.Proofs.Dump.Tidying

/-!
# From a dump to a tree and back

The object that is written for a symbol has, under each interpreted key, what
is written for the part that was read there, and under every other key what
was read there.  So the value of the written dump, brought into order, is the
tidied value of the dump that was read.
-/

namespace Concordance

open Json

/-! ### Lookups in written objects -/

/--
A written object, brought into order, is determined by what its interpreted
members are; its extra members are those of the object that was read.
-/
theorem Json.Value.sorted_object_append
    (taken : List String)
    {leading extra members target : Members}
    (distinct : leading.Distinct)
    (inTaken : ∀ member ∈ leading, member.1 ∈ taken)
    (canonical : (Value.object members).Canonical)
    (rest : extra = members.without taken)
    (targetSorted : target.Sorted)
    (kept : ∀ key, key ∉ taken → target.find? key = members.find? key)
    (interpreted : ∀ key ∈ taken,
      (leading.find? key).map Value.sorted = target.find? key) :
    (Value.object (leading ++ extra)).sorted = .object target := by
  have extraSorted : extra.Sorted := by
    rw [rest]
    exact canonical.members_sorted.without taken
  have wholeDistinct : Members.Distinct (leading ++ extra) := by
    refine Members.distinct_append distinct extraSorted.distinct inTaken ?_
    intro member inExtra
    rw [rest] at inExtra
    exact Members.key_not_mem_of_mem_without inExtra
  have extraEach (key : String) :
      (extra.find? key).map Value.sorted = extra.find? key := by
    cases found : extra.find? key with
    | none => rfl
    | some value =>
        have inExtra := Members.mem_of_find?_eq_some found
        rw [rest] at inExtra
        have inMembers := Members.mem_of_mem_without inExtra
        rw [Option.map_some, (canonical.member _ inMembers).sorted_eq]
  rw [Value.sorted]
  congr 1
  -- Both sides have their keys in order, so it is enough to look up every key.
  apply Members.eq_of_find?_eq (Members.sorted_ofList _) targetSorted
  intro key
  rw [wholeDistinct.sortedMembers.find?_ofList, Members.find?_sortedMembers,
    Members.find?_append]
  by_cases aside : key ∈ taken
  · have absent : extra.find? key = none := by
      rw [rest, Members.find?_without, if_pos aside]
    rw [absent, Option.or_none]
    exact interpreted key aside
  · have absent : leading.find? key = none := by
      apply Members.find?_eq_none_of_forall
      intro member inLeading same
      apply aside
      rw [← same]
      exact inTaken member inLeading
    rw [absent, Option.none_or, extraEach, kept key aside, rest,
      Members.find?_without, if_neg aside]

theorem Json.Value.canonical_item
    {members : Members}
    (canonical : (Value.object members).Canonical)
    {key : String}
    {items : List Value}
    (given : (members.find? key).getD (.array []) = .array items) :
    ∀ item ∈ items, item.Canonical := by
  have empty : (Value.array []).Canonical := .array (List.forall_mem_nil _)
  have array := Members.getD_find?_of_forall canonical.member empty key
  rw [given] at array
  exact array.item

theorem Json.Value.integral_item
    {members : Members}
    (integral : (Value.object members).Integral)
    {key : String}
    {items : List Value}
    (given : (members.find? key).getD (.array []) = .array items) :
    ∀ item ∈ items, item.Integral := by
  have empty : (Value.array []).Integral := .array (List.forall_mem_nil _)
  have array := Members.getD_find?_of_forall integral.member empty key
  rw [given] at array
  exact array.item

namespace Dump

theorem map_eq_map_of_readFrom
    {Part Result : Type}
    {PartReadFrom : Part → Value → Prop}
    {write : Part → Result}
    {target : Value → Result}
    {parts : List Part}
    {items : List Value}
    (readFrom : List.Forall₂ PartReadFrom parts items)
    (each : ∀ part ∈ parts, ∀ item ∈ items,
      PartReadFrom part item → write part = target item) :
    parts.map write = items.map target := by
  induction readFrom with
  | nil => rfl
  | cons first _ induction =>
      rw [List.map_cons, List.map_cons,
        each _ List.mem_cons_self _ List.mem_cons_self first,
        induction fun part inParts item inItems =>
          each part (List.mem_cons_of_mem _ inParts) item
            (List.mem_cons_of_mem _ inItems)]

theorem canonical_of_find?
    {members : Members}
    (canonical : (Value.object members).Canonical)
    {key : String}
    {value : Value}
    (found : members.find? key = some value) :
    value.Canonical :=
  canonical.member _ (Members.mem_of_find?_eq_some found)

/-! ### Tags and comments -/

theorem sorted_withText {members : Members} (sorted : members.Sorted) :
    Members.Sorted
      (if Members.has members "text" then members
        else Members.insert members "text" (.string "")) := by
  split
  · exact sorted
  · exact sorted.insert "text" _

theorem find?_withText (members : Members) (key : String) :
    Members.find?
        (if Members.has members "text" then members
          else Members.insert members "text" (.string "")) key =
      if key = "text" then some ((members.find? "text").getD (.string ""))
      else members.find? key := by
  rw [Members.has]
  cases found : members.find? "text" with
  | none =>
      rw [if_neg (by simp), Members.find?_insert]
      rfl
  | some value =>
      rw [if_pos Option.isSome_some]
      split
      · rename_i same
        rw [same, found]
        rfl
      · rfl

theorem sorted_tagValue
    {tag : Tag}
    {value : Value}
    (readFrom : tag.ReadFrom value)
    (canonical : value.Canonical) :
    (tagValue tag).sorted = tidyTag value := by
  cases readFrom with
  | @object members name text extra =>
      have sorted := canonical.members_sorted
      rw [tidyTag, tagValue]
      refine Value.sorted_object_append tagKeys ?_ ?_ canonical extra
        (sorted_withText sorted) ?_ ?_
      · simp [Members.Distinct]
      · simp [tagKeys]
      · intro key kept
        simp only [tagKeys, List.mem_cons, List.not_mem_nil, or_false,
          not_or] at kept
        rw [find?_withText, if_neg kept.2]
      · intro key interpreted
        rw [find?_withText]
        simp only [tagKeys, List.mem_cons, List.not_mem_nil,
          or_false] at interpreted
        rcases interpreted with rfl | rfl
        · exact name.symm
        · rw [if_pos rfl, text]
          rfl

theorem sorted_array_tags
    {tags : List Tag}
    {value : Value}
    (readFrom : ListReadFrom Tag.ReadFrom tags value)
    (canonical : value.Canonical) :
    (Value.array (tags.map tagValue)).sorted = tidyTags value := by
  cases readFrom with
  | array each =>
      rw [Value.sorted, Value.sortedItems_eq_map, List.map_map, tidyTags]
      congr 1
      exact map_eq_map_of_readFrom each fun tag _ item inItems readFrom =>
        sorted_tagValue readFrom (canonical.item item inItems)

theorem find?_textMember_tagsMember_text (text : String) (tags : List Tag) :
    Members.find? (textMember text ++ tagsMember tags) "text" =
      if text.isEmpty then none else some (.string text) := by
  rw [Members.find?_append]
  rw [textMember, tagsMember]
  split <;> split <;> rfl

theorem find?_textMember_tagsMember_tags (text : String) (tags : List Tag) :
    Members.find? (textMember text ++ tagsMember tags) "tags" =
      if tags.isEmpty then none else some (.array (tags.map tagValue)) := by
  rw [Members.find?_append]
  rw [textMember, tagsMember]
  split <;> split <;> rfl

theorem sorted_text_eq
    {members : Members}
    {text : String}
    (given : (members.find? "text").getD (.string "") = .string text) :
    (if text.isEmpty then none else some (Value.string text)).map Value.sorted =
      (members.find? "text").bind (tidyCommentMember "text") := by
  cases found : members.find? "text" with
  | none =>
      rw [found] at given
      cases given
      rfl
  | some value =>
      rw [found, Option.getD_some] at given
      rw [given, Option.bind_some, tidyCommentMember, if_pos rfl]
      by_cases empty : text = ""
      · rw [empty]
        rfl
      · rw [if_neg (by simpa using empty), if_neg (by simpa using empty)]
        rfl

theorem sorted_tags_eq
    {members : Members}
    (canonical : (Value.object members).Canonical)
    {tags : List Tag}
    (readFrom : ListReadFrom Tag.ReadFrom tags
      ((members.find? "tags").getD (.array []))) :
    (if tags.isEmpty then none
        else some (Value.array (tags.map tagValue))).map Value.sorted =
      (members.find? "tags").bind (tidyCommentMember "tags") := by
  cases found : members.find? "tags" with
  | none =>
      rw [found] at readFrom
      cases readFrom with
      | array each =>
          cases each
          rfl
  | some value =>
      rw [found, Option.getD_some] at readFrom
      have sorted := sorted_array_tags readFrom (canonical_of_find? canonical found)
      have change : tidyCommentMember "tags" value =
          if value = .array [] then none else some (tidyTags value) := by
        rw [tidyCommentMember, if_neg (by decide), if_pos rfl]
      rw [Option.bind_some, change, ← sorted]
      cases readFrom with
      | array each =>
          cases each with
          | nil => simp
          | cons first rest => simp

theorem sorted_commentValue
    {comment : Comment}
    {value : Value}
    (readFrom : comment.ReadFrom value)
    (canonical : value.Canonical) :
    (commentValue comment).sorted = tidyComment value := by
  cases readFrom with
  | @object members text tags extra =>
      have sorted := canonical.members_sorted
      rw [commentValue_eq]
      refine Value.sorted_object_append commentKeys
        (distinct_textMember_tagsMember _ _)
        (fun _ inLeading => textMember_tagsMember_interpreted inLeading) canonical
        extra (sorted.adjust _) ?_ ?_
      · intro key kept
        simp only [commentKeys, List.mem_cons, List.not_mem_nil, or_false,
          not_or] at kept
        rw [sorted.distinct.find?_adjust]
        cases members.find? key with
        | none => rfl
        | some value =>
            rw [Option.bind_some, tidyCommentMember, if_neg kept.1, if_neg kept.2]
      · intro key interpreted
        simp only [commentKeys, List.mem_cons, List.not_mem_nil,
          or_false] at interpreted
        rw [sorted.distinct.find?_adjust]
        rcases interpreted with rfl | rfl
        · rw [find?_textMember_tagsMember_text]
          exact sorted_text_eq text
        · rw [find?_textMember_tagsMember_tags]
          exact sorted_tags_eq canonical tags

/-! ### Symbols -/

theorem find?_interpretedMembers_comment
    (symbol : Symbol)
    (children : List Outline) :
    (interpretedMembers symbol children).find? "comment" =
      symbol.comment.map commentValue := by
  rw [interpretedMembers, Members.find?_append, Members.find?_append, childrenMember_eq]
  cases symbol.comment <;> split <;> rfl

theorem find?_interpretedMembers_children
    (symbol : Symbol)
    (children : List Outline) :
    (interpretedMembers symbol children).find? "children" =
      if children.isEmpty then none
      else some (.array (children.map outlineValue)) := by
  rw [interpretedMembers, Members.find?_append, Members.find?_append, childrenMember_eq]
  cases symbol.comment <;> split <;> rfl

theorem sorted_comment_eq
    {members : Members}
    (canonical : (Value.object members).Canonical)
    {comment : Option Comment}
    (readFrom : CommentReadFrom comment
      ((members.find? "comment").getD .null)) :
    (comment.map commentValue).map Value.sorted =
      (members.find? "comment").bind (tidyMember "comment") := by
  cases found : members.find? "comment" with
  | none =>
      rw [found] at readFrom
      cases readFrom with
      | none => rfl
      | some readFrom => cases readFrom
  | some value =>
      rw [found, Option.getD_some] at readFrom
      rw [Option.bind_some, tidyMember_comment]
      cases readFrom with
      | none => rw [if_pos rfl]; rfl
      | some readFrom =>
          have sorted := sorted_commentValue readFrom
            (canonical_of_find? canonical found)
          rw [if_neg (by rintro rfl; cases readFrom), ← sorted]
          rfl

theorem sorted_children_eq
    {members : Members}
    {children : List Outline}
    {items : List Value}
    (given : (members.find? "children").getD (.array []) = .array items)
    (sorted : children.map (fun child => (outlineValue child).sorted) =
      items.map tidy) :
    (if children.isEmpty then none
        else some (Value.array (children.map outlineValue))).map Value.sorted =
      (members.find? "children").bind (tidyMember "children") := by
  have sameEmpty : children.isEmpty = items.isEmpty := by
    have lengths := congrArg List.length sorted
    simp only [List.length_map] at lengths
    cases children <;> cases items <;> simp_all
  cases found : members.find? "children" with
  | none =>
      rw [found] at given
      cases given
      rw [sameEmpty]
      rfl
  | some value =>
      rw [found, Option.getD_some] at given
      rw [given, Option.bind_some, tidyMember_children, sameEmpty, ← sorted]
      split
      · rfl
      · rw [Option.map_some, Value.sorted, Value.sortedItems_eq_map, List.map_map]
        rfl

/-- The value that is written for a symbol is the tidied value that it was read from. -/
theorem sorted_outlineValue
    {outline : Outline}
    {value : Value}
    (readFrom : outline.ReadFrom value)
    (canonical : value.Canonical) :
    (outlineValue outline).sorted = tidy value := by
  induction outline generalizing value with
  | node symbol children induction =>
      cases readFrom with
      | @object _ _ members items name kind comment array below extra =>
          have sorted := canonical.members_sorted
          have children : children.map (fun child => (outlineValue child).sorted) =
              items.map tidy := by
            refine map_eq_map_of_readFrom below ?_
            intro child inChildren item inItems readFrom
            exact induction child inChildren readFrom
              (Value.canonical_item canonical array item inItems)
          rw [outlineValue_eq, tidy, tidyMembers_eq_adjust]
          refine Value.sorted_object_append symbolKeys
            (distinct_interpretedMembers _ _)
            (fun _ inLeading => interpretedMembers_interpreted inLeading) canonical
            extra (sorted.adjust _) ?_ ?_
          · intro key kept
            simp only [symbolKeys, List.mem_cons, List.not_mem_nil, or_false,
              not_or] at kept
            rcases kept with ⟨-, -, notComment, notChildren⟩
            rw [sorted.distinct.find?_adjust]
            cases members.find? key with
            | none => rfl
            | some value => exact tidyMember_of_ne notComment notChildren value
          · intro key interpreted
            simp only [symbolKeys, List.mem_cons, List.not_mem_nil,
              or_false] at interpreted
            rw [sorted.distinct.find?_adjust]
            rcases interpreted with rfl | rfl | rfl | rfl
            · rw [name, Option.bind_some, tidyMember_of_ne (by decide) (by decide)]
              rfl
            · rw [kind, Option.bind_some, tidyMember_of_ne (by decide) (by decide)]
              rfl
            · rw [find?_interpretedMembers_comment]
              exact sorted_comment_eq canonical comment
            · rw [find?_interpretedMembers_children]
              exact sorted_children_eq array children

end Dump

/-! ### What is read is portable -/

theorem Json.Members.portable_without
    {members : Members}
    (canonical : (Value.object members).Canonical)
    (integral : (Value.object members).Integral)
    (taken : List String) :
    (members.without taken).Portable taken where
  canonical := by
    refine .object (canonical.members_sorted.without taken) ?_
    intro member kept
    exact canonical.member member (Members.mem_of_mem_without kept)
  integral := by
    refine .object ?_
    intro member kept
    exact integral.member member (Members.mem_of_mem_without kept)
  free := by
    intro key aside
    rw [Members.find?_without, if_pos aside]

theorem Tag.ReadFrom.portable
    {tag : Tag}
    {value : Value}
    (readFrom : tag.ReadFrom value)
    (canonical : value.Canonical)
    (integral : value.Integral) :
    tag.Portable := by
  cases readFrom with
  | object name text extra =>
      rw [Tag.Portable, extra]
      exact Members.portable_without canonical integral _

theorem Comment.ReadFrom.portable
    {comment : Comment}
    {value : Value}
    (readFrom : comment.ReadFrom value)
    (canonical : value.Canonical)
    (integral : value.Integral) :
    comment.Portable := by
  cases readFrom with
  | @object members text tags extra =>
      constructor
      · generalize given : (members.find? "tags").getD (.array []) = value at tags
        cases tags with
        | array each =>
            intro tag inTags
            rcases exists_mem_of_forall₂ each tag inTags with ⟨item, inItems, readFrom⟩
            exact readFrom.portable (Value.canonical_item canonical given item inItems)
              (Value.integral_item integral given item inItems)
      · rw [extra]
        exact Members.portable_without canonical integral _

/-- What is read from whole numbers is portable. -/
theorem Outline.ReadFrom.portable
    {outline : Outline}
    {value : Value}
    (readFrom : outline.ReadFrom value)
    (canonical : value.Canonical)
    (integral : value.Integral) :
    outline.Portable := by
  induction outline generalizing value with
  | node symbol children induction =>
      cases readFrom with
      | @object _ _ members items name kind comment array below extra =>
          refine Outline.portable_node.mpr ⟨⟨?_, ?_⟩, ?_⟩
          · intro inner given
            rw [Option.mem_def.mp given] at comment
            have canonicalComment :=
              Members.getD_find?_of_forall canonical.member .null "comment"
            have integralComment :=
              Members.getD_find?_of_forall integral.member .null "comment"
            generalize (members.find? "comment").getD .null = value at *
            cases comment with
            | some readFrom => exact readFrom.portable canonicalComment integralComment
          · rw [extra]
            exact Members.portable_without canonical integral _
          · intro child inChildren
            rcases exists_mem_of_forall₂ below child inChildren with
              ⟨item, inItems, readFrom⟩
            exact induction child inChildren readFrom
              (Value.canonical_item canonical array item inItems)
              (Value.integral_item integral array item inItems)

theorem Outline.ReadFrom.sorted_extra
    {outline : Outline}
    {value : Value}
    (readFrom : outline.ReadFrom value)
    (canonical : value.Canonical) :
    outline.symbol.extra.Sorted := by
  cases readFrom with
  | @object symbol _ _ _ name kind comment array below extra =>
      change symbol.extra.Sorted
      rw [extra]
      exact canonical.members_sorted.without _

namespace Dump

/-! ### Whole dumps -/

/-- A tree that is read is one that adding children makes. -/
theorem built_of_read
    {text : String}
    {tree : Tree}
    (read : Dump.read text = .ok tree) :
    tree.Built := by
  simp only [Dump.read, bind_eq_ok_iff] at read
  rcases read with ⟨whole, -, ⟨⟩, -, ⟨⟩⟩
  exact Tree.built_ofOutline _ _

theorem putReadme_takeReadme
    {outline : Outline}
    (sorted : outline.symbol.extra.Sorted) :
    putReadme (takeReadme outline).2 (takeReadme outline).1 = outline := by
  rcases outline with ⟨symbol, children⟩
  change symbol.extra.Sorted at sorted
  rw [takeReadme]
  split
  · rename_i text found
    simp only [putReadme, Members.insert_erase sorted found]
  · rfl

/-- A tree is read from the plain value of its dump, with the readme taken out. -/
theorem exists_readFrom_of_read
    {text : String}
    {tree : Tree}
    (read : Dump.read text = .ok tree) :
    ∃ value whole, Value.read text = .ok value ∧ value.nesting ≤ depthLimit ∧
      value.Canonical ∧ whole.ReadFrom value ∧
      tree = Tree.ofOutline (takeReadme whole).1 (takeReadme whole).2 := by
  simp only [Dump.read, bind_eq_ok_iff] at read
  rcases read with ⟨whole, readWhole, ⟨⟩, closed, ⟨⟩⟩
  rcases readOutline_eq_ok readWhole with ⟨value, found, readFrom⟩
  refine ⟨value, whole, ?_, Document.nestsWithin_read text value found,
    Document.canonical_of_value found, readFrom, rfl⟩
  have complete := requireClosed_eq_ok closed
  simp only [Value.read, found, complete]
  rfl

/-- A dump that is read is a plain value, and the value of its tree's outline. -/
theorem read_eq_ok
    {text : String}
    {tree : Tree}
    (read : Dump.read text = .ok tree) :
    ∃ value whole, Value.read text = .ok value ∧ value.nesting ≤ depthLimit ∧
      value.Canonical ∧ whole.ReadFrom value ∧
      putReadme tree.readme tree.outline = whole := by
  rcases exists_readFrom_of_read read with
    ⟨value, whole, plain, within, canonical, readFrom, rfl⟩
  refine ⟨value, whole, plain, within, canonical, readFrom, ?_⟩
  rw [Tree.outline_ofOutline, Tree.readme_ofOutline]
  exact putReadme_takeReadme (readFrom.sorted_extra canonical)

/-- What is written for an outline nests no deeper than what it was read from. -/
theorem nesting_outlineValue_le
    {outline : Outline}
    {value : Value}
    (readFrom : outline.ReadFrom value)
    (canonical : value.Canonical)
    (portable : outline.Portable)
    {limit : Nat}
    (within : value.nesting ≤ limit) :
    (outlineValue outline).nesting ≤ limit := by
  apply portable.faithful.unrepeated.nesting_le
  rw [sorted_outlineValue readFrom canonical]
  exact nesting_tidy_le within

/--
A dump that is read has a plain value.  If all its numbers are whole, the
dump of its tree is read as that value, tidied.
-/
theorem write_read
    {text : String}
    {tree : Tree}
    (read : Dump.read text = .ok tree) :
    ∃ value, Value.read text = .ok value ∧
      (value.Integral → Value.read (write tree) = .ok (tidy value)) := by
  rcases read_eq_ok read with ⟨value, whole, plain, within, canonical, readFrom, same⟩
  refine ⟨value, plain, ?_⟩
  intro integral
  have portable := readFrom.portable canonical integral
  rw [write, same, Value.read_pretty portable.faithful.integral
    (nesting_outlineValue_le readFrom canonical portable within),
    sorted_outlineValue readFrom canonical]

/-- A dump that says little: an empty comment whose tag has no text, and no children. -/
def sparseDump : String :=
  "\x7b\"children\": [], \"comment\": \x7b\"tags\": [\x7b\"tag\": \"a\"\x7d], \"text\": \"\"\x7d, "
    ++ "\"kind\": 1, \"name\": \"m\", \"readme\": 5\x7d"

/-- The sparse dump comes back without its children and without its empty text. -/
theorem write_read_sparseDump :
    ∃ tree, Dump.read sparseDump = .ok tree ∧
      Value.read (write tree) = .ok (.object
        [("comment", .object [("tags", .array
            [.object [("tag", .string "a"), ("text", .string "")]])]),
          ("kind", .number (.integer 1)),
          ("name", .string "m"),
          ("readme", .number (.integer 5))]) := by
  have read : Dump.read sparseDump = .ok
      ⟨#[⟨⟨"m", 1, some ⟨"", [⟨"a", "", []⟩], []⟩,
        [("readme", .number (.integer 5))]⟩, none, []⟩], none⟩ := by
    decide +kernel
  have plain : Value.read sparseDump = .ok (.object
      [("children", .array []),
        ("comment", .object [("tags", .array [.object [("tag", .string "a")]]),
          ("text", .string "")]),
        ("kind", .number (.integer 1)),
        ("name", .string "m"),
        ("readme", .number (.integer 5))]) := by
    decide +kernel
  refine ⟨_, read, ?_⟩
  rcases write_read read with ⟨value, given, back⟩
  rw [plain] at given
  cases given
  rw [back]
  · decide +kernel
  · have whole (value : Int) (small : 0 ≤ value ∧ value < 9) :
        (Value.number (.integer value)).Integral := by
      refine .number ⟨?_, ?_⟩ <;> omega
    have tag : (Value.object [("tag", .string "a")]).Integral :=
      .object (List.forall_mem_singleton.mpr (.string _))
    have tags : (Value.array [.object [("tag", .string "a")]]).Integral :=
      .array (List.forall_mem_singleton.mpr tag)
    have comment : (Value.object
        [("tags", .array [.object [("tag", .string "a")]]),
          ("text", .string "")]).Integral := by
      refine .object ?_
      simp only [List.forall_mem_cons]
      exact ⟨tags, .string _, List.forall_mem_nil _⟩
    refine .object ?_
    simp only [List.forall_mem_cons]
    exact ⟨.array (List.forall_mem_nil _), comment, whole 1 (by decide), .string _,
      whole 5 (by decide), List.forall_mem_nil _⟩

end Dump

end Concordance
