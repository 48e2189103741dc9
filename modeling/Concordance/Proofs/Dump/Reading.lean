import Concordance.Proofs.Dump.Records
import Mathlib.Data.List.Forall2

/-!
# What an accepted document says

A document that is read as a symbol is also a plain value, and the symbol is
determined by that value: its interpreted parts are what the value has under
the interpreted keys, with a default where a key is missing, and its extra
members are all other members.  `ReadFrom` is this relation, for tags,
comments and whole outlines.

While an object is read, the fields so far agree with a plain object that has
taken in the same members.  `Agrees` is that invariant, for each of the three
records; it is kept by every member that is accepted.
-/

namespace Concordance

open Json

/-! ### Parts that are determined by plain values -/

/-- Whether a tag is what a plain value says. -/
inductive Tag.ReadFrom : Tag → Value → Prop where
  | object {tag : Tag} {members : Members}
      (name : members.find? "tag" = some (.string tag.name))
      (text : (members.find? "text").getD (.string "") = .string tag.text)
      (extra : tag.extra = members.without Dump.tagKeys) :
      ReadFrom tag (.object members)

/-- Whether a list of parts is what a plain array says. -/
inductive ListReadFrom
    {Part : Type}
    (PartReadFrom : Part → Value → Prop) : List Part → Value → Prop where
  | array {parts : List Part} {items : List Value}
      (each : List.Forall₂ PartReadFrom parts items) :
      ListReadFrom PartReadFrom parts (.array items)

/-- Whether a comment is what a plain value says. -/
inductive Comment.ReadFrom : Comment → Value → Prop where
  | object {comment : Comment} {members : Members}
      (text : (members.find? "text").getD (.string "") = .string comment.text)
      (tags : ListReadFrom Tag.ReadFrom comment.tags
        ((members.find? "tags").getD (.array [])))
      (extra : comment.extra = members.without Dump.commentKeys) :
      ReadFrom comment (.object members)

/-- Whether a comment, or that there is none, is what a plain value says. -/
inductive CommentReadFrom : Option Comment → Value → Prop where
  | none : CommentReadFrom none .null
  | some {comment : Comment} {value : Value}
      (readFrom : comment.ReadFrom value) :
      CommentReadFrom (some comment) value

/-- Whether an outline is what a plain value says. -/
inductive Outline.ReadFrom : Outline → Value → Prop where
  | object {symbol : Symbol} {children : List Outline}
      {members : Members} {items : List Value}
      (name : members.find? "name" = some (.string symbol.name))
      (kind : members.find? "kind" =
        some (.number (.integer symbol.kindCode.toNat)))
      (comment : CommentReadFrom symbol.comment
        ((members.find? "comment").getD .null))
      (array : (members.find? "children").getD (.array []) = .array items)
      (below : List.Forall₂ ReadFrom children items)
      (extra : symbol.extra = members.without Dump.symbolKeys) :
      ReadFrom (.node symbol children) (.object members)

namespace Dump

/-! ### Single members -/

theorem readText_eq_ok
    {document : Document}
    {text : String}
    (read : readText document = .ok text) :
    document.value = .ok (.string text) := by
  cases document with
  | string given =>
      cases read
      rfl
  | _ => cases read

theorem readKindCode_eq_ok
    {document : Document}
    {code : UInt32}
    (read : readKindCode document = .ok code) :
    document.value = .ok (.number (.integer code.toNat)) := by
  cases document with
  | number number =>
      cases number with
      | integer value =>
          rw [readKindCode] at read
          split at read
          · rename_i bounds
            rcases bounds with ⟨nonnegative, below⟩
            cases read
            have small : value.toNat < UInt32.size := by omega
            rw [UInt32.toNat_ofNat_of_lt' small, Int.toNat_of_nonneg nonnegative]
            rfl
          · cases read
      | float _ => cases read
  | _ => cases read

theorem readExtra_eq_ok
    {document : Document}
    {value : Value}
    (read : readExtra document = .ok value) :
    document.value = .ok value := by
  rw [readExtra] at read
  cases found : document.value with
  | ok given =>
      rw [found] at read
      cases read
      rfl
  | error fault =>
      rw [found] at read
      cases read

theorem requireClosed_eq_ok
    {unclosed : Option Fault}
    (closed : requireClosed unclosed = .ok ()) :
    unclosed = none := by
  cases unclosed with
  | none => rfl
  | some fault => cases closed

theorem require_eq_ok
    {α : Type}
    {field : String}
    {given : Option α}
    {value : α}
    (present : require field given = .ok value) :
    given = some value := by
  cases given with
  | none => cases present
  | some found =>
      cases present
      rfl

/-- A record whose members keep the agreement is read from a plain object. -/
theorem value_object_of_agrees
    {Fields : Type}
    {read : Fields → String → Document → Except Problem Fields}
    {Agrees : Fields → Members → Prop}
    {members : List (String × Document)}
    (step : ∀ member ∈ members, ∀ {fields plain result},
      Agrees fields plain → read fields member.1 member.2 = .ok result →
      ∃ value, member.2.value = .ok value ∧
        Agrees result (plain.insert member.1 value))
    {fields result : Fields}
    (start : Agrees fields [])
    (done : members.foldlM
      (fun fields member => read fields member.1 member.2) fields = .ok result) :
    ∃ plain, (Document.object members none).value = .ok (.object plain) ∧
      Agrees result plain := by
  rcases foldlM_agrees step start done with ⟨values, found, agrees⟩
  refine ⟨Members.ofList values, ?_, agrees⟩
  rw [Document.value, found]
  rfl

/-- A list whose items are read from plain values is read from a plain array. -/
theorem value_array_of_mapM
    {Part : Type}
    {read : Document → Except Problem Part}
    {PartReadFrom : Part → Value → Prop}
    {items : List Document}
    (each : ∀ item ∈ items, ∀ {part}, read item = .ok part →
      ∃ value, item.value = .ok value ∧ PartReadFrom part value)
    {parts : List Part}
    (done : items.mapM read = .ok parts) :
    ∃ values, Document.values items = .ok values ∧
      List.Forall₂ PartReadFrom parts values := by
  induction items generalizing parts with
  | nil =>
      cases done
      exact ⟨[], rfl, .nil⟩
  | cons item items induction =>
      rcases List.forall_mem_cons.mp each with ⟨first, others⟩
      rcases mapM_cons_eq_ok_iff.mp done with ⟨part, rest, readFirst, readRest, rfl⟩
      rcases first readFirst with ⟨value, found, readFrom⟩
      rcases induction others readRest with ⟨values, foundRest, restFrom⟩
      refine ⟨value :: values, ?_, .cons readFrom restFrom⟩
      rw [Document.values, found, foundRest]
      rfl

/-! ### Tags -/

/-- Whether the fields of a tag agree with the members that were taken in. -/
structure TagFields.Agrees (fields : TagFields) (plain : Members) : Prop where
  sorted : plain.Sorted
  name : plain.find? "tag" = fields.name.map .string
  text : plain.find? "text" = fields.text.map .string
  extra : fields.extra = plain.without tagKeys

theorem TagFields.agrees_start : TagFields.Agrees {} [] :=
  ⟨Members.sorted_nil, rfl, rfl, rfl⟩

theorem TagFields.Agrees.read
    {fields result : TagFields}
    {plain : Members}
    (agrees : fields.Agrees plain)
    {key : String}
    {document : Document}
    (read : fields.read key document = .ok result) :
    ∃ value, document.value = .ok value ∧
      result.Agrees (plain.insert key value) := by
  rw [TagFields.read] at read
  split at read
  · rename_i atName
    subst atName
    simp only [bind_eq_ok_iff] at read
    rcases read with ⟨-, -, name, readName, ⟨⟩⟩
    refine ⟨.string name, readText_eq_ok readName, ?_⟩
    constructor
    · exact agrees.sorted.insert _ _
    · exact Members.find?_insert_self _ _ _
    · rw [Members.find?_insert_of_ne (by decide)]
      exact agrees.text
    · rw [Members.without_insert_of_mem agrees.sorted (by decide)]
      exact agrees.extra
  · split at read
    · rename_i atText
      subst atText
      simp only [bind_eq_ok_iff] at read
      rcases read with ⟨-, -, text, readText, ⟨⟩⟩
      refine ⟨.string text, readText_eq_ok readText, ?_⟩
      constructor
      · exact agrees.sorted.insert _ _
      · rw [Members.find?_insert_of_ne (by decide)]
        exact agrees.name
      · exact Members.find?_insert_self _ _ _
      · rw [Members.without_insert_of_mem agrees.sorted (by decide)]
        exact agrees.extra
    · rename_i notName notText
      rw [bind_eq_ok_iff] at read
      rcases read with ⟨value, readValue, ⟨⟩⟩
      refine ⟨value, readExtra_eq_ok readValue, ?_⟩
      constructor
      · exact agrees.sorted.insert _ _
      · rw [Members.find?_insert_of_ne (Ne.symm notName)]
        exact agrees.name
      · rw [Members.find?_insert_of_ne (Ne.symm notText)]
        exact agrees.text
      · rw [Members.without_insert_of_not_mem agrees.sorted
          (by simp [tagKeys, notName, notText]), agrees.extra]

/-- A tag that is read is what the plain value of its document says. -/
theorem readTag_eq_ok
    {document : Document}
    {tag : Tag}
    (read : readTag document = .ok tag) :
    ∃ value, document.value = .ok value ∧ tag.ReadFrom value := by
  cases document with
  | object members unclosed =>
      simp only [readTag, bind_eq_ok_iff] at read
      rcases read with ⟨fields, done, ⟨⟩, closed, name, present, ⟨⟩⟩
      rcases requireClosed_eq_ok closed with rfl
      rcases value_object_of_agrees
          (fun _ _ _ _ _ agrees read => agrees.read read)
          TagFields.agrees_start done with
        ⟨plain, found, agrees⟩
      refine ⟨.object plain, found, .object ?_ ?_ agrees.extra⟩
      · rw [agrees.name, require_eq_ok present]
        rfl
      · rw [agrees.text]
        cases fields.text <;> rfl
  | deepObject => cases read
  | _ => cases read

theorem readTags_eq_ok
    {document : Document}
    {tags : List Tag}
    (read : readTags document = .ok tags) :
    ∃ value, document.value = .ok value ∧
      ListReadFrom Tag.ReadFrom tags value := by
  cases document with
  | array items unclosed =>
      simp only [readTags, bind_eq_ok_iff] at read
      rcases read with ⟨parts, done, ⟨⟩, closed, ⟨⟩⟩
      rcases requireClosed_eq_ok closed with rfl
      rcases value_array_of_mapM (fun _ _ _ readItem => readTag_eq_ok readItem) done with
        ⟨values, found, each⟩
      refine ⟨.array values, ?_, .array each⟩
      rw [Document.value, found]
      rfl
  | _ => cases read

/-! ### Comments -/

/-- Whether the fields of a comment agree with the members that were taken in. -/
structure CommentFields.Agrees (fields : CommentFields) (plain : Members) : Prop where
  sorted : plain.Sorted
  text : (plain.find? "text").getD (.string "") = .string (fields.text.getD "")
  tags : ListReadFrom Tag.ReadFrom (fields.tags.getD [])
    ((plain.find? "tags").getD (.array []))
  extra : fields.extra = plain.without commentKeys

theorem CommentFields.agrees_start : CommentFields.Agrees {} [] :=
  ⟨Members.sorted_nil, rfl, .array .nil, rfl⟩

theorem CommentFields.Agrees.read
    {fields result : CommentFields}
    {plain : Members}
    (agrees : fields.Agrees plain)
    {key : String}
    {document : Document}
    (read : fields.read key document = .ok result) :
    ∃ value, document.value = .ok value ∧
      result.Agrees (plain.insert key value) := by
  rw [CommentFields.read] at read
  split at read
  · rename_i atText
    subst atText
    simp only [bind_eq_ok_iff] at read
    rcases read with ⟨-, -, text, readText, ⟨⟩⟩
    refine ⟨.string text, readText_eq_ok readText, ?_⟩
    constructor
    · exact agrees.sorted.insert _ _
    · rw [Members.find?_insert_self]
      rfl
    · rw [Members.find?_insert_of_ne (by decide)]
      exact agrees.tags
    · rw [Members.without_insert_of_mem agrees.sorted (by decide)]
      exact agrees.extra
  · split at read
    · rename_i atTags
      subst atTags
      simp only [bind_eq_ok_iff] at read
      rcases read with ⟨-, -, tags, readTags, ⟨⟩⟩
      rcases readTags_eq_ok readTags with ⟨value, found, readFrom⟩
      refine ⟨value, found, ?_⟩
      constructor
      · exact agrees.sorted.insert _ _
      · rw [Members.find?_insert_of_ne (by decide)]
        exact agrees.text
      · rw [Members.find?_insert_self]
        exact readFrom
      · rw [Members.without_insert_of_mem agrees.sorted (by decide)]
        exact agrees.extra
    · rename_i notText notTags
      rw [bind_eq_ok_iff] at read
      rcases read with ⟨value, readValue, ⟨⟩⟩
      refine ⟨value, readExtra_eq_ok readValue, ?_⟩
      constructor
      · exact agrees.sorted.insert _ _
      · rw [Members.find?_insert_of_ne (Ne.symm notText)]
        exact agrees.text
      · rw [Members.find?_insert_of_ne (Ne.symm notTags)]
        exact agrees.tags
      · rw [Members.without_insert_of_not_mem agrees.sorted
          (by simp [commentKeys, notText, notTags]), agrees.extra]

/-- A comment that is read is what the plain value of its document says. -/
theorem readComment_eq_ok
    {document : Document}
    {comment : Option Comment}
    (read : readComment document = .ok comment) :
    ∃ value, document.value = .ok value ∧ CommentReadFrom comment value := by
  cases document with
  | null =>
      cases read
      exact ⟨.null, rfl, .none⟩
  | object members unclosed =>
      simp only [readComment, bind_eq_ok_iff] at read
      rcases read with ⟨fields, done, ⟨⟩, closed, ⟨⟩⟩
      rcases requireClosed_eq_ok closed with rfl
      rcases value_object_of_agrees
          (fun _ _ _ _ _ agrees read => agrees.read read)
          CommentFields.agrees_start done with
        ⟨plain, found, agrees⟩
      exact ⟨.object plain, found,
        .some (.object agrees.text agrees.tags agrees.extra)⟩
  | _ => cases read

/-! ### Symbols -/

/-- Whether the fields of a symbol agree with the members that were taken in. -/
structure SymbolFields.Agrees (fields : SymbolFields) (plain : Members) : Prop where
  sorted : plain.Sorted
  name : plain.find? "name" = fields.name.map .string
  kind : plain.find? "kind" =
    fields.kindCode.map fun code => .number (.integer code.toNat)
  comment : CommentReadFrom fields.comment.join
    ((plain.find? "comment").getD .null)
  children : ListReadFrom Outline.ReadFrom (fields.children.getD [])
    ((plain.find? "children").getD (.array []))
  extra : fields.extra = plain.without symbolKeys

theorem SymbolFields.agrees_start : SymbolFields.Agrees {} [] :=
  ⟨Members.sorted_nil, rfl, rfl, .none, .array .nil, rfl⟩

/-- Whether the children that are read from a document are what its plain value says. -/
def ChildrenSound (document : Document) : Prop :=
  ∀ {children}, readChildren document = .ok children →
    ∃ value, document.value = .ok value ∧
      ListReadFrom Outline.ReadFrom children value

theorem SymbolFields.Agrees.read
    {fields result : SymbolFields}
    {plain : Members}
    (agrees : fields.Agrees plain)
    {key : String}
    {document : Document}
    (sound : ChildrenSound document)
    (read : fields.read key document = .ok result) :
    ∃ value, document.value = .ok value ∧
      result.Agrees (plain.insert key value) := by
  rw [SymbolFields.read] at read
  split at read
  · rename_i atName
    subst atName
    simp only [bind_eq_ok_iff] at read
    rcases read with ⟨-, -, name, readName, ⟨⟩⟩
    refine ⟨.string name, readText_eq_ok readName, agrees.sorted.insert _ _,
      Members.find?_insert_self _ _ _, ?_, ?_, ?_, ?_⟩
    · rw [Members.find?_insert_of_ne (by decide)]
      exact agrees.kind
    · rw [Members.find?_insert_of_ne (by decide)]
      exact agrees.comment
    · rw [Members.find?_insert_of_ne (by decide)]
      exact agrees.children
    · rw [Members.without_insert_of_mem agrees.sorted (by decide)]
      exact agrees.extra
  split at read
  · rename_i atKind
    subst atKind
    simp only [bind_eq_ok_iff] at read
    rcases read with ⟨-, -, code, readCode, ⟨⟩⟩
    refine ⟨.number (.integer code.toNat), readKindCode_eq_ok readCode,
      agrees.sorted.insert _ _, ?_, Members.find?_insert_self _ _ _, ?_, ?_, ?_⟩
    · rw [Members.find?_insert_of_ne (by decide)]
      exact agrees.name
    · rw [Members.find?_insert_of_ne (by decide)]
      exact agrees.comment
    · rw [Members.find?_insert_of_ne (by decide)]
      exact agrees.children
    · rw [Members.without_insert_of_mem agrees.sorted (by decide)]
      exact agrees.extra
  split at read
  · rename_i atComment
    subst atComment
    simp only [bind_eq_ok_iff] at read
    rcases read with ⟨-, -, comment, readComment, ⟨⟩⟩
    rcases readComment_eq_ok readComment with ⟨value, found, readFrom⟩
    refine ⟨value, found, agrees.sorted.insert _ _, ?_, ?_, ?_, ?_, ?_⟩
    · rw [Members.find?_insert_of_ne (by decide)]
      exact agrees.name
    · rw [Members.find?_insert_of_ne (by decide)]
      exact agrees.kind
    · rw [Members.find?_insert_self]
      exact readFrom
    · rw [Members.find?_insert_of_ne (by decide)]
      exact agrees.children
    · rw [Members.without_insert_of_mem agrees.sorted (by decide)]
      exact agrees.extra
  split at read
  · rename_i atChildren
    subst atChildren
    simp only [bind_eq_ok_iff] at read
    rcases read with ⟨-, -, children, readChildren, ⟨⟩⟩
    rcases sound readChildren with ⟨value, found, readFrom⟩
    refine ⟨value, found, agrees.sorted.insert _ _, ?_, ?_, ?_, ?_, ?_⟩
    · rw [Members.find?_insert_of_ne (by decide)]
      exact agrees.name
    · rw [Members.find?_insert_of_ne (by decide)]
      exact agrees.kind
    · rw [Members.find?_insert_of_ne (by decide)]
      exact agrees.comment
    · rw [Members.find?_insert_self]
      exact readFrom
    · rw [Members.without_insert_of_mem agrees.sorted (by decide)]
      exact agrees.extra
  · rename_i notName notKind notComment notChildren
    rw [bind_eq_ok_iff] at read
    rcases read with ⟨value, readValue, ⟨⟩⟩
    refine ⟨value, readExtra_eq_ok readValue, agrees.sorted.insert _ _,
      ?_, ?_, ?_, ?_, ?_⟩
    · rw [Members.find?_insert_of_ne (Ne.symm notName)]
      exact agrees.name
    · rw [Members.find?_insert_of_ne (Ne.symm notKind)]
      exact agrees.kind
    · rw [Members.find?_insert_of_ne (Ne.symm notComment)]
      exact agrees.comment
    · rw [Members.find?_insert_of_ne (Ne.symm notChildren)]
      exact agrees.children
    · rw [Members.without_insert_of_not_mem agrees.sorted
        (by simp [symbolKeys, notName, notKind, notComment, notChildren]),
        agrees.extra]

theorem SymbolFields.Agrees.outline
    {fields : SymbolFields}
    {plain : Members}
    (agrees : fields.Agrees plain)
    {outline : Outline}
    (complete : fields.outline = .ok outline) :
    outline.ReadFrom (.object plain) := by
  simp only [SymbolFields.outline, bind_eq_ok_iff] at complete
  rcases complete with ⟨name, namePresent, code, codePresent, ⟨⟩⟩
  have children := agrees.children
  generalize atChildren : (plain.find? "children").getD (.array []) = value
    at children
  cases children with
  | array each =>
      refine .object ?_ ?_ agrees.comment atChildren each agrees.extra
      · rw [agrees.name, require_eq_ok namePresent]
        rfl
      · rw [agrees.kind, require_eq_ok codePresent]
        rfl

/-- Outlines and lists of children are what the plain value of their document says. -/
theorem outline_and_children_sound (document : Document) :
    (∀ {outline}, readOutline document = .ok outline →
      ∃ value, document.value = .ok value ∧ outline.ReadFrom value) ∧
      ChildrenSound document := by
  induction document with
  | object members unclosed induction =>
      constructor
      · intro outline read
        simp only [readOutline, readFields_eq_foldlM, bind_eq_ok_iff] at read
        rcases read with ⟨fields, done, ⟨⟩, closed, complete⟩
        rcases requireClosed_eq_ok closed with rfl
        rcases value_object_of_agrees
            (fun member inMembers _ _ _ agrees read =>
              agrees.read (induction member inMembers).2 read)
            SymbolFields.agrees_start done with
          ⟨plain, found, agrees⟩
        exact ⟨.object plain, found, agrees.outline complete⟩
      · intro children read
        simp only [readChildren] at read
        cases read
  | array items unclosed induction =>
      constructor
      · intro outline read
        simp only [readOutline] at read
        cases read
      · intro children read
        simp only [readChildren, readOutlines_eq_mapM, bind_eq_ok_iff] at read
        rcases read with ⟨parts, done, ⟨⟩, closed, ⟨⟩⟩
        rcases requireClosed_eq_ok closed with rfl
        rcases value_array_of_mapM
            (fun item inItems _ readItem => (induction item inItems).1 readItem)
            done with
          ⟨values, found, each⟩
        refine ⟨.array values, ?_, .array each⟩
        rw [Document.value, found]
        rfl
  | _ =>
      constructor <;> intro result read
      all_goals
        simp only [readOutline, readChildren] at read
        cases read

/-- An outline that is read is what the plain value of its document says. -/
theorem readOutline_eq_ok
    {document : Document}
    {outline : Outline}
    (read : readOutline document = .ok outline) :
    ∃ value, document.value = .ok value ∧ outline.ReadFrom value :=
  (outline_and_children_sound document).1 read

end Dump

end Concordance
