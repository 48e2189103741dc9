import Concordance.Proofs.Dump.RoundTrip

/-!
# The shape of a dump

What a value must be to be read as a symbol, a comment or a tag, its members
standing in the order of the text and keys possibly repeated: under each
interpreted key there are the right number of values, each of the right kind;
members under other keys do not matter (`exists_readOutline_iff`).

The readers of tags, comments and symbols have this in common: each
interpreted key is a `Slot`, which takes one value of a certain kind and no
second one.  Members are therefore read to the end exactly if every slot
finds at most one value and takes it (`Slots.exists_readWritten_iff`).
-/

namespace Concordance

open Json

/-! ### The values of a key -/

namespace Json

/-- The values that stand under a key, in order. -/
def Members.valuesOf (members : Members) (key : String) : List Value :=
  (members.filter fun member => member.1 = key).map Prod.snd

@[simp]
theorem Members.valuesOf_nil (key : String) : Members.valuesOf [] key = [] := rfl

theorem Members.valuesOf_cons
    (head : String)
    (value : Value)
    (rest : Members)
    (key : String) :
    Members.valuesOf ((head, value) :: rest) key =
      if head = key then value :: Members.valuesOf rest key
      else Members.valuesOf rest key := by
  unfold Members.valuesOf
  rw [List.filter_cons]
  by_cases same : head = key <;> simp [same]

theorem Members.mem_of_mem_valuesOf
    {members : Members}
    {key : String}
    {value : Value}
    (found : value ∈ members.valuesOf key) :
    (key, value) ∈ members := by
  rcases List.mem_map.mp found with ⟨⟨head, given⟩, inFilter, rfl⟩
  rcases List.mem_filter.mp inFilter with ⟨inMembers, same⟩
  rw [← of_decide_eq_true same]
  exact inMembers

/-- The items of an array; other values have none. -/
def Value.items : Value → List Value
  | .array items => items
  | _ => []

end Json

namespace Dump

/-! ### Shapes -/

/-- Whether there is exactly one value, of the given kind. -/
def ExactlyOne (Admits : Value → Prop) (values : List Value) : Prop :=
  ∃ value, values = [value] ∧ Admits value

/-- Whether there is no value, or exactly one, of the given kind. -/
def AtMostOne (Admits : Value → Prop) (values : List Value) : Prop :=
  values = [] ∨ ExactlyOne Admits values

/-- Whether a value is a string. -/
def IsText (value : Value) : Prop :=
  ∃ text, value = .string text

/-- Whether a value is a whole number of 32 bits. -/
def IsKindCode (value : Value) : Prop :=
  ∃ code : Nat, code < 2 ^ 32 ∧ value = .number (.integer code)

/-- Whether a value is an array of values of the given kind. -/
def IsArrayOf (Admits : Value → Prop) (value : Value) : Prop :=
  ∃ items, value = .array items ∧ ∀ item ∈ items, Admits item

/-- Whether a value is a tag. -/
inductive IsTag : Value → Prop where
  | object {members : Members}
      (name : ExactlyOne IsText (members.valuesOf "tag"))
      (text : AtMostOne IsText (members.valuesOf "text")) :
      IsTag (.object members)

/-- Whether a value is a comment. -/
inductive IsComment : Value → Prop where
  | object {members : Members}
      (text : AtMostOne IsText (members.valuesOf "text"))
      (tags : AtMostOne (IsArrayOf IsTag) (members.valuesOf "tags")) :
      IsComment (.object members)

/-- The values of the children of a symbol. -/
def childValues (members : Members) : List Value :=
  (members.valuesOf "children").flatMap Value.items

/-- Whether a value is a reflection: a symbol, and all its descendants. -/
inductive IsReflection : Value → Prop where
  | object {members : Members}
      (name : ExactlyOne IsText (members.valuesOf "name"))
      (kind : ExactlyOne IsKindCode (members.valuesOf "kind"))
      (comment : AtMostOne (fun value => value = .null ∨ IsComment value)
        (members.valuesOf "comment"))
      (children : AtMostOne (IsArrayOf fun _ => True) (members.valuesOf "children"))
      (below : ∀ child ∈ childValues members, IsReflection child) :
      IsReflection (.object members)

theorem ExactlyOne.congr
    {Admits Others : Value → Prop}
    {values : List Value}
    (each : ∀ value ∈ values, Admits value ↔ Others value) :
    ExactlyOne Admits values ↔ ExactlyOne Others values := by
  constructor
  · rintro ⟨value, rfl, admits⟩
    exact ⟨value, rfl, (each value List.mem_cons_self).mp admits⟩
  · rintro ⟨value, rfl, admits⟩
    exact ⟨value, rfl, (each value List.mem_cons_self).mpr admits⟩

theorem AtMostOne.congr
    {Admits Others : Value → Prop}
    {values : List Value}
    (each : ∀ value ∈ values, Admits value ↔ Others value) :
    AtMostOne Admits values ↔ AtMostOne Others values :=
  or_congr_right (ExactlyOne.congr each)

/-- At most one value that is an array of a kind is at most one array, with items of that kind. -/
theorem atMostOne_isArrayOf_iff {Admits : Value → Prop} {values : List Value} :
    AtMostOne (IsArrayOf Admits) values ↔
      AtMostOne (IsArrayOf fun _ => True) values ∧
        ∀ item ∈ values.flatMap Value.items, Admits item := by
  constructor
  · rintro (rfl | ⟨_, rfl, items, rfl, each⟩)
    · exact ⟨.inl rfl, List.forall_mem_nil _⟩
    · refine ⟨.inr ⟨_, rfl, items, rfl, fun _ _ => trivial⟩, ?_⟩
      rwa [List.flatMap_singleton]
  · rintro ⟨rfl | ⟨_, rfl, items, rfl, -⟩, each⟩
    · exact .inl rfl
    · rw [List.flatMap_singleton] at each
      exact .inr ⟨_, rfl, items, rfl, each⟩

/-! ### Slots -/

/-- A place for the value of one key among the fields of a record. -/
structure Slot (Fields : Type) where
  key : String
  /-- Whether the place has been taken. -/
  filled : Fields → Bool
  /-- Which values the place admits. -/
  Admits : Value → Prop

/-- Whether a reader of members fills slots, and does so at their keys only. -/
structure Slots
    {Fields : Type}
    (read : Fields → String → Document → Except Problem Fields)
    (slots : List (Slot Fields)) : Prop where
  known : ∀ slot ∈ slots, ∀ (fields : Fields) (value : Value),
    (∃ next, read fields slot.key value.document = .ok next) ↔
      slot.filled fields = false ∧ slot.Admits value
  unknown : ∀ key, (∀ slot ∈ slots, slot.key ≠ key) →
    ∀ (fields : Fields) (value : Value),
      ∃ next, read fields key value.document = .ok next
  filled : ∀ slot ∈ slots, ∀ {fields key document next},
    read fields key document = .ok next →
    (slot.filled next = true ↔ slot.filled fields = true ∨ key = slot.key)

section

variable {Fields : Type}
variable {read : Fields → String → Document → Except Problem Fields}
variable {slots : List (Slot Fields)}

/-- Whether given values find their place: there are none, or there is one and it is admitted. -/
def Slot.Fits (slot : Slot Fields) (fields : Fields) (values : List Value) : Prop :=
  values = [] ∨ slot.filled fields = false ∧ ExactlyOne slot.Admits values

theorem Slot.fits_iff_of_not_filled
    {slot : Slot Fields}
    {fields : Fields}
    (free : slot.filled fields = false)
    {values : List Value} :
    slot.Fits fields values ↔ AtMostOne slot.Admits values := by
  rw [Slot.Fits, AtMostOne]
  exact or_congr_right (and_iff_right free)

theorem Slot.fits_iff_of_filled
    {slot : Slot Fields}
    {fields : Fields}
    (taken : slot.filled fields = true)
    {values : List Value} :
    slot.Fits fields values ↔ values = [] := by
  rw [Slot.Fits, taken]
  constructor
  · rintro (none | ⟨⟨⟩, -⟩)
    exact none
  · exact .inl

/-- A slot fits the values behind a member exactly if it fits them and the member is read. -/
theorem Slots.fits_cons_iff
    (fill : Slots read slots)
    {slot : Slot Fields}
    (inSlots : slot ∈ slots)
    {fields next : Fields}
    {key : String}
    {value : Value}
    (readFirst : read fields key value.document = .ok next)
    (members : Members) :
    slot.Fits fields (Members.valuesOf ((key, value) :: members) slot.key) ↔
      slot.Fits next (members.valuesOf slot.key) := by
  have taken := fill.filled slot inSlots readFirst
  rw [Members.valuesOf_cons]
  by_cases same : key = slot.key
  · subst same
    rcases (fill.known slot inSlots fields value).mp ⟨next, readFirst⟩ with ⟨free, admits⟩
    rw [if_pos rfl, Slot.fits_iff_of_not_filled free,
      Slot.fits_iff_of_filled (taken.mpr (.inr rfl))]
    constructor
    · rintro (⟨⟨⟩⟩ | ⟨_, same, _⟩)
      exact (List.cons.inj same).2
    · intro none
      rw [none]
      exact .inr ⟨value, rfl, admits⟩
  · have unchanged : slot.filled next = slot.filled fields := by
      rw [Bool.eq_iff_iff, taken]
      exact or_iff_left same
    rw [if_neg same, Slot.Fits, Slot.Fits, unchanged]

/-- Members are read to the end exactly if all slots fit the values of their keys. -/
theorem Slots.exists_readWritten_iff
    (fill : Slots read slots)
    {fields : Fields}
    {members : Members} :
    (∃ result, readWritten read fields members = .ok result) ↔
      ∀ slot ∈ slots, slot.Fits fields (members.valuesOf slot.key) := by
  induction members generalizing fields with
  | nil => exact ⟨fun _ _ _ => .inl rfl, fun _ => ⟨fields, rfl⟩⟩
  | cons member members induction =>
      rcases member with ⟨key, value⟩
      constructor
      · rintro ⟨result, done⟩
        rw [readWritten_cons, bind_eq_ok_iff] at done
        rcases done with ⟨next, readFirst, readRest⟩
        intro slot inSlots
        exact (fill.fits_cons_iff inSlots readFirst members).mpr
          (induction.mp ⟨result, readRest⟩ slot inSlots)
      · intro fits
        have first : ∃ next, read fields key value.document = .ok next := by
          by_cases known : ∃ slot ∈ slots, slot.key = key
          · rcases known with ⟨slot, inSlots, rfl⟩
            have fit := fits slot inSlots
            rw [Members.valuesOf_cons, if_pos rfl] at fit
            rcases fit with ⟨⟨⟩⟩ | ⟨free, given, same, admits⟩
            rcases List.cons.inj same with ⟨rfl, -⟩
            exact (fill.known slot inSlots fields value).mpr ⟨free, admits⟩
          · exact fill.unknown key (fun slot inSlots same => known ⟨slot, inSlots, same⟩)
              fields value
        rcases first with ⟨next, readFirst⟩
        have rest : ∃ result, readWritten read next members = .ok result :=
          induction.mpr fun slot inSlots =>
            (fill.fits_cons_iff inSlots readFirst members).mp (fits slot inSlots)
        rw [readWritten_cons_of_read readFirst]
        exact rest

/-- After reading, the slots are filled whose keys have a value. -/
theorem Slots.filled_iff_of_readWritten
    (fill : Slots read slots)
    {slot : Slot Fields}
    (inSlots : slot ∈ slots)
    {fields result : Fields}
    {members : Members}
    (done : readWritten read fields members = .ok result) :
    slot.filled result = true ↔
      slot.filled fields = true ∨ members.valuesOf slot.key ≠ [] := by
  induction members generalizing fields with
  | nil =>
      cases done
      simp
  | cons member members induction =>
      rcases member with ⟨key, value⟩
      rw [readWritten_cons, bind_eq_ok_iff] at done
      rcases done with ⟨next, readFirst, readRest⟩
      rw [induction readRest, fill.filled slot inSlots readFirst, Members.valuesOf_cons]
      by_cases same : key = slot.key
      · simp [same]
      · simp [same]

/-- Whether all places of a record are free. -/
def Fresh (slots : List (Slot Fields)) (fields : Fields) : Prop :=
  ∀ slot ∈ slots, slot.filled fields = false

/-- All members of an object are read exactly if every key has at most one value, of its kind. -/
theorem Slots.exists_readWritten_iff_of_fresh
    (fill : Slots read slots)
    {fields : Fields}
    (fresh : Fresh slots fields)
    {members : Members} :
    (∃ result, readWritten read fields members = .ok result) ↔
      ∀ slot ∈ slots, AtMostOne slot.Admits (members.valuesOf slot.key) := by
  rw [fill.exists_readWritten_iff]
  exact forall₂_congr fun slot inSlots =>
    Slot.fits_iff_of_not_filled (fresh slot inSlots)

/-- A place that must be taken finds exactly one value. -/
theorem Slots.filled_iff_exactlyOne
    (fill : Slots read slots)
    {fields result : Fields}
    (fresh : Fresh slots fields)
    {members : Members}
    (done : readWritten read fields members = .ok result)
    {slot : Slot Fields}
    (inSlots : slot ∈ slots) :
    slot.filled result = true ↔
      ExactlyOne slot.Admits (members.valuesOf slot.key) := by
  have atMostOne :=
    (fill.exists_readWritten_iff_of_fresh fresh).mp ⟨result, done⟩ slot inSlots
  rw [fill.filled_iff_of_readWritten inSlots done, fresh slot inSlots]
  constructor
  · rintro (⟨⟨⟩⟩ | some)
    exact atMostOne.resolve_left some
  · rintro ⟨value, one, -⟩
    rw [one]
    exact .inr (List.cons_ne_nil _ _)

end

/-! ### Single members -/

theorem exists_readText_iff {value : Value} :
    (∃ text, readText value.document = .ok text) ↔ IsText value := by
  constructor
  · rintro ⟨text, read⟩
    cases value with
    | string given => exact ⟨given, rfl⟩
    | _ => cases read
  · rintro ⟨text, rfl⟩
    exact ⟨text, rfl⟩

theorem exists_readKindCode_iff {value : Value} :
    (∃ code, readKindCode value.document = .ok code) ↔ IsKindCode value := by
  constructor
  · rintro ⟨code, read⟩
    have whole := readKindCode_eq_ok read
    rw [Value.value_document] at whole
    cases value with
    | number number =>
        cases whole
        exact ⟨code.toNat, code.toNat_lt, rfl⟩
    | _ => cases whole
  · rintro ⟨code, small, rfl⟩
    have same : (UInt32.ofNat code).toNat = code := UInt32.toNat_ofNat_of_lt' small
    refine ⟨UInt32.ofNat code, ?_⟩
    have read := readKindCode_document (UInt32.ofNat code)
    rwa [same] at read

/-- A member that must be new is read exactly if it is new and its value is. -/
theorem exists_readNew_iff
    {Part Fields : Type}
    {field : String}
    {given : Option Part}
    {part : Except Problem Part}
    {put : Part → Fields} :
    (∃ next,
      (do
        requireNew field given
        let value ← part
        pure (put value)) = Except.ok next) ↔
      given.isSome = false ∧ ∃ value, part = .ok value := by
  constructor
  · rintro ⟨next, read⟩
    simp only [bind_eq_ok_iff] at read
    rcases read with ⟨⟨⟩, new, value, found, -⟩
    refine ⟨?_, value, found⟩
    cases given with
    | none => rfl
    | some old => cases new
  · rintro ⟨new, value, found⟩
    cases given with
    | none => exact ⟨put value, by rw [found]; rfl⟩
    | some old => cases new

/-- A member that must be new is put among the fields once it has been read. -/
theorem exists_eq_put_of_readNew
    {Part Fields : Type}
    {field : String}
    {given : Option Part}
    {part : Except Problem Part}
    {put : Part → Fields}
    {next : Fields}
    (read :
      (do
        requireNew field given
        let value ← part
        pure (put value)) = Except.ok next) :
    ∃ value, next = put value := by
  simp only [bind_eq_ok_iff] at read
  rcases read with ⟨-, -, value, -, ⟨⟩⟩
  exact ⟨value, rfl⟩

/-! ### Tags -/

/-- The interpreted members of a tag. -/
def tagSlots : List (Slot TagFields) :=
  [⟨"tag", fun fields => fields.name.isSome, IsText⟩,
    ⟨"text", fun fields => fields.text.isSome, IsText⟩]

/-- What one member of a tag can do to its fields. -/
theorem TagFields.read_cases
    {fields next : TagFields}
    {key : String}
    {document : Document}
    (read : fields.read key document = .ok next) :
    (key = "tag" ∧ ∃ value, next = { fields with name := some value }) ∨
    (key = "text" ∧ ∃ value, next = { fields with text := some value }) ∨
    (key ≠ "tag" ∧ key ≠ "text" ∧
      ∃ extra, next = { fields with extra := extra }) := by
  rw [TagFields.read] at read
  split_ifs at read with atTag atText
  · exact .inl ⟨atTag, exists_eq_put_of_readNew read⟩
  · exact .inr <| .inl ⟨atText, exists_eq_put_of_readNew read⟩
  · rw [bind_eq_ok_iff] at read
    rcases read with ⟨extra, -, ⟨⟩⟩
    exact .inr <| .inr ⟨atTag, atText, _, rfl⟩

theorem slots_tag : Slots TagFields.read tagSlots where
  known := by
    refine List.forall_mem_cons.mpr ⟨?_, List.forall_mem_singleton.mpr ?_⟩
    · intro fields value
      rw [TagFields.read, if_pos rfl, exists_readNew_iff, exists_readText_iff]
    · intro fields value
      rw [TagFields.read, if_neg (by decide), if_pos rfl, exists_readNew_iff,
        exists_readText_iff]
  unknown := by
    intro key others fields value
    have notTag : key ≠ "tag" := Ne.symm (others _ (.head _))
    have notText : key ≠ "text" := Ne.symm (others _ (.tail _ (.head _)))
    rw [TagFields.read, if_neg notTag, if_neg notText, readExtra_document]
    exact ⟨_, rfl⟩
  filled := by
    refine List.forall_mem_cons.mpr ⟨?_, List.forall_mem_singleton.mpr ?_⟩
    all_goals
      intro fields key document next read
      rcases TagFields.read_cases read with
        ⟨rfl, _, rfl⟩ | ⟨rfl, _, rfl⟩ | ⟨notTag, notText, _, rfl⟩
      all_goals simp [*]

theorem fresh_tag : Fresh tagSlots {} := by
  refine List.forall_mem_cons.mpr ⟨rfl, List.forall_mem_singleton.mpr rfl⟩

theorem exists_readTag_object_iff {members : Members} :
    (∃ tag, readTag (Value.object members).document = .ok tag) ↔
      ∃ fields, readWritten TagFields.read {} members = .ok fields ∧
        fields.name.isSome = true := by
  constructor
  · rintro ⟨tag, read⟩
    simp only [Value.document, readTag, bind_eq_ok_iff] at read
    rcases read with ⟨fields, done, ⟨⟩, -, name, present, -⟩
    exact ⟨fields, done, by rw [require_eq_ok present]; rfl⟩
  · rintro ⟨fields, done, named⟩
    rcases Option.isSome_iff_exists.mp named with ⟨name, present⟩
    refine ⟨⟨name, fields.text.getD "", fields.extra⟩, ?_⟩
    rw [Value.document, readTag]
    change (readWritten TagFields.read {} members >>= _) = _
    rw [done]
    change (require "tag" fields.name >>= _) = _
    rw [present]
    rfl

/-- A value is read as a tag exactly if it is one. -/
theorem exists_readTag_iff {value : Value} :
    (∃ tag, readTag value.document = .ok tag) ↔ IsTag value := by
  cases value with
  | object members =>
      rw [exists_readTag_object_iff]
      constructor
      · rintro ⟨fields, done, named⟩
        have each := (slots_tag.exists_readWritten_iff_of_fresh fresh_tag).mp ⟨fields, done⟩
        exact .object
          ((slots_tag.filled_iff_exactlyOne fresh_tag done (.head _)).mp named)
          (each _ (.tail _ (.head _)))
      · rintro ⟨name, text⟩
        have each : ∀ slot ∈ tagSlots, AtMostOne slot.Admits (Members.valuesOf members slot.key) :=
          List.forall_mem_cons.mpr ⟨.inr name, List.forall_mem_singleton.mpr text⟩
        rcases (slots_tag.exists_readWritten_iff_of_fresh fresh_tag).mpr each with
          ⟨fields, done⟩
        exact ⟨fields, done,
          (slots_tag.filled_iff_exactlyOne fresh_tag done (.head _)).mpr name⟩
  | _ =>
      constructor
      · rintro ⟨tag, read⟩
        cases read
      · rintro ⟨⟩

/-- Every one of several documents is read exactly if they are read one after the other. -/
theorem exists_mapM_iff
    {Part : Type}
    {read : Document → Except Problem Part}
    {items : List Value} :
    (∃ parts, (Value.documents items).mapM read = .ok parts) ↔
      ∀ item ∈ items, ∃ part, read item.document = .ok part := by
  rw [Value.documents_eq_map, exists_mapM_eq_ok_iff, List.forall_mem_map]

theorem IsArrayOf.congr
    {Admits Others : Value → Prop}
    {value : Value}
    (each : ∀ item ∈ value.items, Admits item ↔ Others item) :
    IsArrayOf Admits value ↔ IsArrayOf Others value := by
  constructor
  · rintro ⟨items, rfl, admits⟩
    exact ⟨items, rfl, fun item inItems => (each item inItems).mp (admits item inItems)⟩
  · rintro ⟨items, rfl, admits⟩
    exact ⟨items, rfl, fun item inItems => (each item inItems).mpr (admits item inItems)⟩

/-- A value is read item by item exactly if it is an array of values that are read. -/
theorem exists_readArray_iff
    {Part : Type}
    {read : Document → Except Problem Part}
    {readArray : Document → Except Problem (List Part)}
    (array : ∀ items, readArray (.array items none) = items.mapM read)
    (other : ∀ value : Value, (∀ items, value ≠ .array items) →
      ∀ parts, readArray value.document ≠ .ok parts)
    {value : Value} :
    (∃ parts, readArray value.document = .ok parts) ↔
      IsArrayOf (fun item => ∃ part, read item.document = .ok part) value := by
  constructor
  · rintro ⟨parts, done⟩
    cases value with
    | array items =>
        rw [Value.document, array] at done
        exact ⟨items, rfl, exists_mapM_iff.mp ⟨parts, done⟩⟩
    | _ => exact (other _ (by rintro _ ⟨⟩) parts done).elim
  · rintro ⟨items, rfl, each⟩
    rw [Value.document, array]
    exact exists_mapM_iff.mpr each

theorem exists_readTags_iff {value : Value} :
    (∃ tags, readTags value.document = .ok tags) ↔ IsArrayOf IsTag value := by
  have array (items : List Document) :
      readTags (.array items none) = items.mapM readTag := by
    rw [readTags]
    exact bind_pure _
  have other (value : Value) (notArray : ∀ items, value ≠ .array items)
      (tags : List Tag) : readTags value.document ≠ .ok tags := by
    intro read
    cases value with
    | array items => exact notArray items rfl
    | _ => cases read
  rw [exists_readArray_iff array other]
  exact IsArrayOf.congr fun _ _ => exists_readTag_iff

/-! ### Comments -/

/-- The interpreted members of a comment. -/
def commentSlots : List (Slot CommentFields) :=
  [⟨"text", fun fields => fields.text.isSome, IsText⟩,
    ⟨"tags", fun fields => fields.tags.isSome, IsArrayOf IsTag⟩]

/-- What one member of a comment can do to its fields. -/
theorem CommentFields.read_cases
    {fields next : CommentFields}
    {key : String}
    {document : Document}
    (read : fields.read key document = .ok next) :
    (key = "text" ∧ ∃ value, next = { fields with text := some value }) ∨
    (key = "tags" ∧ ∃ value, next = { fields with tags := some value }) ∨
    (key ≠ "text" ∧ key ≠ "tags" ∧
      ∃ extra, next = { fields with extra := extra }) := by
  rw [CommentFields.read] at read
  split_ifs at read with atText atTags
  · exact .inl ⟨atText, exists_eq_put_of_readNew read⟩
  · exact .inr <| .inl ⟨atTags, exists_eq_put_of_readNew read⟩
  · rw [bind_eq_ok_iff] at read
    rcases read with ⟨extra, -, ⟨⟩⟩
    exact .inr <| .inr ⟨atText, atTags, _, rfl⟩

theorem slots_comment : Slots CommentFields.read commentSlots where
  known := by
    refine List.forall_mem_cons.mpr ⟨?_, List.forall_mem_singleton.mpr ?_⟩
    · intro fields value
      rw [CommentFields.read, if_pos rfl, exists_readNew_iff, exists_readText_iff]
    · intro fields value
      rw [CommentFields.read, if_neg (by decide), if_pos rfl, exists_readNew_iff,
        exists_readTags_iff]
  unknown := by
    intro key others fields value
    have notText : key ≠ "text" := Ne.symm (others _ (.head _))
    have notTags : key ≠ "tags" := Ne.symm (others _ (.tail _ (.head _)))
    rw [CommentFields.read, if_neg notText, if_neg notTags, readExtra_document]
    exact ⟨_, rfl⟩
  filled := by
    refine List.forall_mem_cons.mpr ⟨?_, List.forall_mem_singleton.mpr ?_⟩
    all_goals
      intro fields key document next read
      rcases CommentFields.read_cases read with
        ⟨rfl, _, rfl⟩ | ⟨rfl, _, rfl⟩ | ⟨notText, notTags, _, rfl⟩
      all_goals simp [*]

theorem fresh_comment : Fresh commentSlots {} :=
  List.forall_mem_cons.mpr ⟨rfl, List.forall_mem_singleton.mpr rfl⟩

/-- A value is read as a comment, or as none, exactly if it is null or a comment. -/
theorem exists_readComment_iff {value : Value} :
    (∃ comment, readComment value.document = .ok comment) ↔
      value = .null ∨ IsComment value := by
  cases value with
  | null => exact ⟨fun _ => .inl rfl, fun _ => ⟨none, rfl⟩⟩
  | object members =>
      have whole : (∃ comment, readComment (Value.object members).document = .ok comment) ↔
          ∃ fields, readWritten CommentFields.read {} members = .ok fields := by
        constructor
        · rintro ⟨comment, read⟩
          simp only [Value.document, readComment, bind_eq_ok_iff] at read
          rcases read with ⟨fields, done, -⟩
          exact ⟨fields, done⟩
        · rintro ⟨fields, done⟩
          refine ⟨some ⟨fields.text.getD "", fields.tags.getD [], fields.extra⟩, ?_⟩
          rw [Value.document, readComment]
          change (readWritten CommentFields.read {} members >>= _) = _
          rw [done]
          rfl
      rw [whole, slots_comment.exists_readWritten_iff_of_fresh fresh_comment]
      constructor
      · intro each
        exact .inr (.object (each _ (.head _)) (each _ (.tail _ (.head _))))
      · rintro (⟨⟨⟩⟩ | ⟨text, tags⟩)
        exact List.forall_mem_cons.mpr ⟨text, List.forall_mem_singleton.mpr tags⟩
  | _ =>
      constructor
      · rintro ⟨comment, read⟩
        cases read
      · rintro (isNull | isComment)
        · cases isNull
        · cases isComment

/-! ### Symbols -/

/-- The interpreted members of a symbol. -/
def symbolSlots : List (Slot SymbolFields) :=
  [⟨"name", fun fields => fields.name.isSome, IsText⟩,
    ⟨"kind", fun fields => fields.kindCode.isSome, IsKindCode⟩,
    ⟨"comment", fun fields => fields.comment.isSome,
      fun value => value = .null ∨ IsComment value⟩,
    ⟨"children", fun fields => fields.children.isSome,
      IsArrayOf fun item => ∃ outline, readOutline item.document = .ok outline⟩]

theorem exists_readChildren_iff {value : Value} :
    (∃ children, readChildren value.document = .ok children) ↔
      IsArrayOf (fun item => ∃ outline, readOutline item.document = .ok outline) value := by
  apply exists_readArray_iff
  · intro items
    rw [readChildren, readOutlines_eq_mapM]
    exact bind_pure _
  · intro value notArray children read
    cases value with
    | array items => exact notArray items rfl
    | _ =>
        simp only [Value.document, readChildren] at read
        cases read

/-- What one member of a symbol can do to its fields. -/
theorem SymbolFields.read_cases
    {fields next : SymbolFields}
    {key : String}
    {document : Document}
    (read : fields.read key document = .ok next) :
    (key = "name" ∧ ∃ value, next = { fields with name := some value }) ∨
    (key = "kind" ∧ ∃ value, next = { fields with kindCode := some value }) ∨
    (key = "comment" ∧ ∃ value, next = { fields with comment := some value }) ∨
    (key = "children" ∧ ∃ value, next = { fields with children := some value }) ∨
    (key ≠ "name" ∧ key ≠ "kind" ∧ key ≠ "comment" ∧ key ≠ "children" ∧
      ∃ extra, next = { fields with extra := extra }) := by
  rw [SymbolFields.read] at read
  split_ifs at read with atName atKind atComment atChildren
  · exact .inl ⟨atName, exists_eq_put_of_readNew read⟩
  · exact .inr <| .inl ⟨atKind, exists_eq_put_of_readNew read⟩
  · exact .inr <| .inr <| .inl ⟨atComment, exists_eq_put_of_readNew read⟩
  · exact .inr <| .inr <| .inr <| .inl ⟨atChildren, exists_eq_put_of_readNew read⟩
  · rw [bind_eq_ok_iff] at read
    rcases read with ⟨extra, -, ⟨⟩⟩
    exact .inr <| .inr <| .inr <| .inr ⟨atName, atKind, atComment, atChildren, _, rfl⟩

theorem slots_symbol : Slots SymbolFields.read symbolSlots where
  known := by
    refine List.forall_mem_cons.mpr ⟨?_, List.forall_mem_cons.mpr ⟨?_,
      List.forall_mem_cons.mpr ⟨?_, List.forall_mem_singleton.mpr ?_⟩⟩⟩
    · intro fields value
      rw [SymbolFields.read, if_pos rfl, exists_readNew_iff, exists_readText_iff]
    · intro fields value
      rw [SymbolFields.read, if_neg (by decide), if_pos rfl, exists_readNew_iff,
        exists_readKindCode_iff]
    · intro fields value
      rw [SymbolFields.read, if_neg (by decide), if_neg (by decide), if_pos rfl,
        exists_readNew_iff, exists_readComment_iff]
    · intro fields value
      rw [SymbolFields.read, if_neg (by decide), if_neg (by decide), if_neg (by decide),
        if_pos rfl, exists_readNew_iff, exists_readChildren_iff]
  unknown := by
    intro key others fields value
    have notName : key ≠ "name" := Ne.symm (others _ (.head _))
    have notKind : key ≠ "kind" := Ne.symm (others _ (.tail _ (.head _)))
    have notComment : key ≠ "comment" := Ne.symm (others _ (.tail _ (.tail _ (.head _))))
    have notChildren : key ≠ "children" :=
      Ne.symm (others _ (.tail _ (.tail _ (.tail _ (.head _)))))
    rw [SymbolFields.read, if_neg notName, if_neg notKind, if_neg notComment,
      if_neg notChildren, readExtra_document]
    exact ⟨_, rfl⟩
  filled := by
    refine List.forall_mem_cons.mpr ⟨?_, List.forall_mem_cons.mpr ⟨?_,
      List.forall_mem_cons.mpr ⟨?_, List.forall_mem_singleton.mpr ?_⟩⟩⟩
    all_goals
      intro fields key document next read
      rcases SymbolFields.read_cases read with
        ⟨rfl, _, rfl⟩ | ⟨rfl, _, rfl⟩ | ⟨rfl, _, rfl⟩ | ⟨rfl, _, rfl⟩ |
          ⟨notName, notKind, notComment, notChildren, _, rfl⟩
      all_goals simp [*]

theorem fresh_symbol : Fresh symbolSlots {} :=
  List.forall_mem_cons.mpr ⟨rfl, List.forall_mem_cons.mpr ⟨rfl,
    List.forall_mem_cons.mpr ⟨rfl, List.forall_mem_singleton.mpr rfl⟩⟩⟩

theorem exists_readOutline_object_iff {members : Members} :
    (∃ outline, readOutline (Value.object members).document = .ok outline) ↔
      ∃ fields, readWritten SymbolFields.read {} members = .ok fields ∧
        fields.name.isSome = true ∧ fields.kindCode.isSome = true := by
  have fields_eq : readFields {} (Value.memberDocuments members) =
      readWritten SymbolFields.read {} members :=
    readFields_eq_foldlM _ _
  constructor
  · rintro ⟨outline, read⟩
    simp only [Value.document, readOutline, fields_eq, SymbolFields.outline,
      bind_eq_ok_iff] at read
    rcases read with ⟨fields, done, ⟨⟩, -, name, named, code, coded, -⟩
    refine ⟨fields, done, ?_, ?_⟩
    · rw [require_eq_ok named]
      rfl
    · rw [require_eq_ok coded]
      rfl
  · rintro ⟨fields, done, named, coded⟩
    rcases Option.isSome_iff_exists.mp named with ⟨name, hasName⟩
    rcases Option.isSome_iff_exists.mp coded with ⟨code, hasCode⟩
    refine ⟨.node ⟨name, code, fields.comment.join, fields.extra⟩
      (fields.children.getD []), ?_⟩
    rw [Value.document, readOutline, fields_eq, done]
    change fields.outline = _
    rw [SymbolFields.outline, hasName, hasCode]
    rfl

/-- An object is read as a symbol if its members are right and its children are read. -/
theorem exists_readOutline_iff_slots {members : Members} :
    (∃ outline, readOutline (Value.object members).document = .ok outline) ↔
      ExactlyOne IsText (members.valuesOf "name") ∧
      ExactlyOne IsKindCode (members.valuesOf "kind") ∧
      AtMostOne (fun value => value = .null ∨ IsComment value)
        (members.valuesOf "comment") ∧
      AtMostOne (IsArrayOf fun item => ∃ outline, readOutline item.document = .ok outline)
        (members.valuesOf "children") := by
  rw [exists_readOutline_object_iff]
  constructor
  · rintro ⟨fields, done, named, coded⟩
    have each := (slots_symbol.exists_readWritten_iff_of_fresh fresh_symbol).mp ⟨fields, done⟩
    refine ⟨?_, ?_, ?_, ?_⟩
    · exact (slots_symbol.filled_iff_exactlyOne fresh_symbol done (.head _)).mp named
    · exact (slots_symbol.filled_iff_exactlyOne fresh_symbol done
        (.tail _ (.head _))).mp coded
    · exact each _ (.tail _ (.tail _ (.head _)))
    · exact each _ (.tail _ (.tail _ (.tail _ (.head _))))
  · rintro ⟨name, kind, comment, children⟩
    have each : ∀ slot ∈ symbolSlots,
        AtMostOne slot.Admits (Members.valuesOf members slot.key) :=
      List.forall_mem_cons.mpr ⟨.inr name, List.forall_mem_cons.mpr ⟨.inr kind,
        List.forall_mem_cons.mpr ⟨comment, List.forall_mem_singleton.mpr children⟩⟩⟩
    rcases (slots_symbol.exists_readWritten_iff_of_fresh fresh_symbol).mpr each with
      ⟨fields, done⟩
    refine ⟨fields, done, ?_, ?_⟩
    · exact (slots_symbol.filled_iff_exactlyOne fresh_symbol done (.head _)).mpr name
    · exact (slots_symbol.filled_iff_exactlyOne fresh_symbol done
        (.tail _ (.head _))).mpr kind

/-- A value is read as a symbol with its descendants exactly if it is a reflection. -/
theorem exists_readOutline_iff {value : Value} :
    (∃ outline, readOutline value.document = .ok outline) ↔ IsReflection value := by
  -- The children of an object are the items of an array in it, one level further down.
  suffices both :
      ((∃ outline, readOutline value.document = .ok outline) ↔ IsReflection value) ∧
        ∀ item ∈ value.items,
          (∃ outline, readOutline item.document = .ok outline) ↔ IsReflection item from
    both.1
  induction value with
  | array items induction =>
      refine ⟨?_, fun item inItems => (induction item inItems).1⟩
      constructor
      · rintro ⟨outline, read⟩
        simp only [Value.document, readOutline] at read
        cases read
      · rintro ⟨⟩
  | object members induction =>
      refine ⟨?_, List.forall_mem_nil _⟩
      have children : ∀ value ∈ members.valuesOf "children", ∀ item ∈ value.items,
          (∃ outline, readOutline item.document = .ok outline) ↔ IsReflection item :=
        fun value inValues => (induction _ (Members.mem_of_mem_valuesOf inValues)).2
      rw [exists_readOutline_iff_slots,
        AtMostOne.congr fun value inValues => IsArrayOf.congr (children value inValues),
        atMostOne_isArrayOf_iff]
      constructor
      · rintro ⟨name, kind, comment, single, below⟩
        exact .object name kind comment single below
      · rintro ⟨name, kind, comment, single, below⟩
        exact ⟨name, kind, comment, single, below⟩
  | _ =>
      refine ⟨?_, List.forall_mem_nil _⟩
      constructor
      · rintro ⟨outline, read⟩
        simp only [Value.document, readOutline] at read
        cases read
      · rintro ⟨⟩

end Dump

end Concordance
