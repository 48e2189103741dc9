import Concordance.Proofs.Dump.Portable

/-!
# Reading the members of a record

A tag, a comment and a symbol are read in the same way: one member after the
other changes the fields that have been read so far.  Two facts about such a
reader are proved once for all three.  Members that are carried along only
add to the extra members (`readWritten_extra`).  And if every single member
keeps the fields in agreement with a plain object that takes in the same
member, then the whole record does (`foldlM_agrees`).
-/

namespace Concordance.Dump

open Json

/-- Read one member of a symbol. -/
def SymbolFields.read
    (fields : SymbolFields)
    (key : String)
    (document : Document) : Except Problem SymbolFields :=
  if key = "name" then do
    requireNew key fields.name
    let name ← readText document
    pure { fields with name := some name }
  else if key = "kind" then do
    requireNew key fields.kindCode
    let kindCode ← readKindCode document
    pure { fields with kindCode := some kindCode }
  else if key = "comment" then do
    requireNew key fields.comment
    let comment ← readComment document
    pure { fields with comment := some comment }
  else if key = "children" then do
    requireNew key fields.children
    let children ← readChildren document
    pure { fields with children := some children }
  else do
    let value ← readExtra document
    pure { fields with extra := fields.extra.insert key value }

/-- The members of a symbol are read one after the other. -/
theorem readFields_eq_foldlM
    (fields : SymbolFields)
    (members : List (String × Document)) :
    readFields fields members =
      members.foldlM
        (fun fields member => SymbolFields.read fields member.1 member.2)
        fields := by
  induction members generalizing fields with
  | nil =>
      rw [readFields]
      rfl
  | cons member members induction =>
      rcases member with ⟨key, document⟩
      rw [readFields, List.foldlM_cons, SymbolFields.read]
      repeat' split
      all_goals simp only [bind_assoc, pure_bind, induction]

theorem readOutlines_eq_mapM (documents : List Document) :
    readOutlines documents = documents.mapM readOutline := by
  induction documents with
  | nil =>
      rw [readOutlines]
      rfl
  | cons document documents induction =>
      rw [readOutlines, List.mapM_cons, induction]

/-! ### Members that are carried along -/

theorem readExtra_document (value : Value) :
    readExtra value.document = .ok value.sorted := by
  rw [readExtra, Value.value_document]
  rfl

/-- Read the members of an object that was written, one after the other. -/
def readWritten
    {Fields : Type}
    (read : Fields → String → Document → Except Problem Fields)
    (fields : Fields)
    (members : Members) : Except Problem Fields :=
  (Value.memberDocuments members).foldlM
    (fun fields member => read fields member.1 member.2) fields

section

variable {Fields : Type}
variable {read : Fields → String → Document → Except Problem Fields}

@[simp]
theorem readWritten_nil (fields : Fields) :
    readWritten read fields [] = .ok fields := rfl

theorem readWritten_cons
    (fields : Fields)
    (key : String)
    (value : Value)
    (members : Members) :
    readWritten read fields ((key, value) :: members) =
      read fields key value.document >>= (readWritten read · members) := rfl

theorem readWritten_cons_of_read
    {fields next : Fields}
    {key : String}
    {value : Value}
    (first : read fields key value.document = .ok next)
    (members : Members) :
    readWritten read fields ((key, value) :: members) =
      readWritten read next members := by
  rw [readWritten_cons, first]
  rfl

@[simp]
theorem readWritten_singleton
    (fields : Fields)
    (key : String)
    (value : Value) :
    readWritten read fields [(key, value)] = read fields key value.document := by
  rw [readWritten_cons]
  exact bind_pure _

theorem readWritten_append
    {fields middle : Fields}
    {first : Members}
    (before : readWritten read fields first = .ok middle)
    (second : Members) :
    readWritten read fields (first ++ second) =
      readWritten read middle second := by
  induction first generalizing fields with
  | nil =>
      cases before
      rfl
  | cons member first induction =>
      rcases member with ⟨key, value⟩
      rw [readWritten_cons, bind_eq_ok_iff] at before
      rcases before with ⟨next, readFirst, readRest⟩
      rw [List.cons_append, readWritten_cons_of_read readFirst]
      exact induction readRest

/-- Members that are carried along are collected, each with its value sorted. -/
theorem readWritten_extra
    {withExtra : Members → Fields}
    {taken : List String}
    (carried : ∀ extra key document, key ∉ taken →
      read (withExtra extra) key document =
        (readExtra document).map fun value => withExtra (extra.insert key value))
    {members : Members}
    (free : ∀ member ∈ members, member.1 ∉ taken)
    (extra : Members) :
    readWritten read (withExtra extra) members =
      .ok (withExtra (extra.insertAll (Value.sortedMembers members))) := by
  induction members generalizing extra with
  | nil => rfl
  | cons member members induction =>
      rcases member with ⟨key, value⟩
      rcases List.forall_mem_cons.mp free with ⟨first, others⟩
      rw [readWritten_cons, carried extra key _ first, readExtra_document,
        Value.sortedMembers, Members.insertAll_cons]
      exact induction others (extra.insert key value.sorted)

/-- Portable members are collected as they are. -/
theorem readWritten_portable
    {withExtra : Members → Fields}
    {taken : List String}
    (carried : ∀ extra key document, key ∉ taken →
      read (withExtra extra) key document =
        (readExtra document).map fun value => withExtra (extra.insert key value))
    {extra : Members}
    (portable : extra.Portable taken) :
    readWritten read (withExtra []) extra = .ok (withExtra extra) := by
  rw [readWritten_extra carried fun _ inExtra => portable.key_not_mem inExtra,
    Value.sortedMembers_eq_self portable.canonical,
    ← Members.ofList_eq_insertAll, portable.sorted.ofList_eq]

end

/-! ### Agreement with a plain object -/

/-- If every member keeps the fields in agreement with a plain object, the record does. -/
theorem foldlM_agrees
    {Fields : Type}
    {read : Fields → String → Document → Except Problem Fields}
    {Agrees : Fields → Members → Prop}
    {members : List (String × Document)}
    (step : ∀ member ∈ members, ∀ {fields plain result},
      Agrees fields plain → read fields member.1 member.2 = .ok result →
      ∃ value, member.2.value = .ok value ∧
        Agrees result (plain.insert member.1 value))
    {fields result : Fields}
    {plain : Members}
    (agrees : Agrees fields plain)
    (done : members.foldlM
      (fun fields member => read fields member.1 member.2) fields = .ok result) :
    ∃ values, Document.memberValues members = .ok values ∧
      Agrees result (plain.insertAll values) := by
  induction members generalizing fields plain with
  | nil =>
      cases done
      exact ⟨[], rfl, agrees⟩
  | cons member members induction =>
      rcases member with ⟨key, document⟩
      rcases List.forall_mem_cons.mp step with ⟨first, others⟩
      rw [List.foldlM_cons, bind_eq_ok_iff] at done
      rcases done with ⟨next, readFirst, readRest⟩
      rcases first agrees readFirst with ⟨value, found, agreesNext⟩
      rcases induction others agreesNext readRest with ⟨values, foundRest, agreesRest⟩
      refine ⟨(key, value) :: values, ?_, agreesRest⟩
      rw [Document.memberValues, found, foundRest]
      rfl

end Concordance.Dump
