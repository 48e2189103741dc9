import Concordance.Proofs.Failure
import Concordance.Proofs.Json.Reading

/-!
# Values of documents

The value of a document is canonical: every object in it has its members in
order.  The document of a printed value has that value, sorted, so a value
that is written and read again comes back sorted and otherwise unchanged.

Reading a text never yields a value that nests deeper than the limit.  This
is kept by every token: `Reading.Within` says of a reader between two tokens
that what it holds so far leaves room for the containers around it.
-/

namespace Concordance

namespace Json

/-! ### Reading what was printed -/

mutual

/-- The document of a printed value has that value, sorted. -/
theorem Value.value_document :
    ∀ value : Value, value.document.value = .ok value.sorted
  | .null => rfl
  | .bool _ => rfl
  | .number _ => rfl
  | .string _ => rfl
  | .array items => by
      rw [Value.document, Document.value, Value.values_documents items]
      rfl
  | .object members => by
      rw [Value.document, Document.value,
        Value.memberValues_memberDocuments members]
      rfl

theorem Value.values_documents :
    ∀ items : List Value,
      Document.values (Value.documents items) = .ok (Value.sortedItems items)
  | [] => rfl
  | item :: items => by
      rw [Value.documents, Document.values, Value.value_document item,
        Value.values_documents items]
      rfl

theorem Value.memberValues_memberDocuments :
    ∀ members : List (String × Value),
      Document.memberValues (Value.memberDocuments members) =
        .ok (Value.sortedMembers members)
  | [] => rfl
  | (key, value) :: members => by
      rw [Value.memberDocuments, Document.memberValues,
        Value.value_document value, Value.memberValues_memberDocuments members]
      rfl

end

/-- A text with the tokens of a value that nests within the limit is read as that value, sorted. -/
theorem Value.read_of_tokens
    {text : String}
    {value : Value}
    (cut : Json.tokens text.toList = value.tokens)
    (shallow : value.nesting ≤ depthLimit) :
    Value.read text = .ok value.sorted := by
  rw [Value.read, Document.read_of_tokens cut shallow]
  change (value.document.value >>= _) = _
  rw [Value.value_document]
  rfl

/-- A value that is written and read again comes back sorted. -/
theorem Value.read_pretty
    {value : Value}
    (integral : value.Integral)
    (shallow : value.nesting ≤ depthLimit) :
    Value.read value.pretty = .ok value.sorted :=
  Value.read_of_tokens (Value.tokens_pretty integral) shallow

/-! ### Documents without a fault -/

/-- Induction over a document, with its items and members as they stand in it. -/
@[induction_eliminator]
theorem Document.induction
    {motive : Document → Prop}
    (null : motive .null)
    (bool : ∀ value, motive (.bool value))
    (number : ∀ value, motive (.number value))
    (string : ∀ value, motive (.string value))
    (array : ∀ items unclosed,
      (∀ item ∈ items, motive item) → motive (.array items unclosed))
    (object : ∀ members unclosed,
      (∀ member ∈ members, motive member.2) → motive (.object members unclosed))
    (deepArray : motive .deepArray)
    (deepObject : motive .deepObject)
    (broken : ∀ fault, motive (.broken fault)) :
    ∀ document, motive document :=
  @Document.rec motive
    (fun items => ∀ item ∈ items, motive item)
    (fun members => ∀ member ∈ members, motive member.2)
    (fun member => motive member.2)
    null bool number string array object deepArray deepObject broken
    nofun (fun _ _ first rest => List.forall_mem_cons.mpr ⟨first, rest⟩)
    nofun (fun _ _ first rest => List.forall_mem_cons.mpr ⟨first, rest⟩)
    (fun _ _ document => document)

theorem Document.value_array_eq_ok
    {items : List Document}
    {unclosed : Option Fault}
    {value : Value}
    (read : (Document.array items unclosed).value = .ok value) :
    unclosed = none ∧
      ∃ values, Document.values items = .ok values ∧ value = .array values := by
  rw [Document.value, bind_eq_ok_iff] at read
  rcases read with ⟨values, found, closed⟩
  cases unclosed with
  | some fault => cases closed
  | none =>
      cases closed
      exact ⟨rfl, values, found, rfl⟩

theorem Document.value_object_eq_ok
    {members : List (String × Document)}
    {unclosed : Option Fault}
    {value : Value}
    (read : (Document.object members unclosed).value = .ok value) :
    unclosed = none ∧
      ∃ values, Document.memberValues members = .ok values ∧
        value = .object (Members.ofList values) := by
  rw [Document.value, bind_eq_ok_iff] at read
  rcases read with ⟨values, found, closed⟩
  cases unclosed with
  | some fault => cases closed
  | none =>
      cases closed
      exact ⟨rfl, values, found, rfl⟩

/-- Every one of several values is the value of a document. -/
theorem Document.exists_of_mem_values
    {documents : List Document}
    {values : List Value}
    (read : Document.values documents = .ok values) :
    ∀ value ∈ values, ∃ document ∈ documents, document.value = .ok value := by
  induction documents generalizing values with
  | nil =>
      cases read
      exact List.forall_mem_nil _
  | cons document documents induction =>
      simp only [Document.values, bind_eq_ok_iff] at read
      rcases read with ⟨first, foundFirst, rest, foundRest, ⟨⟩⟩
      rw [List.forall_mem_cons]
      refine ⟨⟨document, List.mem_cons_self, foundFirst⟩, ?_⟩
      intro value inRest
      rcases induction foundRest value inRest with ⟨inner, inDocuments, found⟩
      exact ⟨inner, List.mem_cons_of_mem _ inDocuments, found⟩

/-- The value of every member is the value of a member's document. -/
theorem Document.exists_of_mem_memberValues
    {members : List (String × Document)}
    {values : Members}
    (read : Document.memberValues members = .ok values) :
    ∀ value ∈ values, ∃ member ∈ members, member.2.value = .ok value.2 := by
  induction members generalizing values with
  | nil =>
      cases read
      exact List.forall_mem_nil _
  | cons member members induction =>
      rcases member with ⟨key, document⟩
      simp only [Document.memberValues, bind_eq_ok_iff] at read
      rcases read with ⟨first, foundFirst, rest, foundRest, ⟨⟩⟩
      rw [List.forall_mem_cons]
      refine ⟨⟨(key, document), List.mem_cons_self, foundFirst⟩, ?_⟩
      intro value inRest
      rcases induction foundRest value inRest with ⟨inner, inMembers, found⟩
      exact ⟨inner, List.mem_cons_of_mem _ inMembers, found⟩

/-- The value of a document is canonical. -/
theorem Document.canonical_of_value
    {document : Document}
    {value : Value}
    (read : document.value = .ok value) :
    value.Canonical := by
  induction document generalizing value with
  | null =>
      cases read
      exact .null
  | bool given =>
      cases read
      exact .bool given
  | number given =>
      cases read
      exact .number given
  | string given =>
      cases read
      exact .string given
  | array items unclosed induction =>
      rcases Document.value_array_eq_ok read with ⟨-, values, found, rfl⟩
      refine .array ?_
      intro inner inValues
      rcases Document.exists_of_mem_values found inner inValues with
        ⟨item, inItems, readItem⟩
      exact induction item inItems readItem
  | object members unclosed induction =>
      rcases Document.value_object_eq_ok read with ⟨-, values, found, rfl⟩
      refine .object (Members.sorted_ofList values) ?_
      intro inner inOrder
      rcases Document.exists_of_mem_memberValues found inner
          (Members.mem_of_mem_ofList inOrder) with
        ⟨member, inMembers, readMember⟩
      exact induction member inMembers readMember
  | deepArray | deepObject | broken => cases read

/-! ### Texts nest within the limit -/

/-- Whether a value of the document, if it has one, nests at most so deep. -/
def Document.NestsWithin (document : Document) (limit : Nat) : Prop :=
  ∀ value, document.value = .ok value → value.nesting ≤ limit

theorem Document.Faulty.nestsWithin
    {document : Document}
    (faulty : document.Faulty)
    (limit : Nat) :
    document.NestsWithin limit := by
  intro value read
  exact (faulty value read).elim

theorem Document.NestsWithin.array
    {limit : Nat}
    {items : List Document}
    (each : ∀ item ∈ items, item.NestsWithin limit)
    (unclosed : Option Fault) :
    (Document.array items unclosed).NestsWithin (limit + 1) := by
  intro value read
  rcases Document.value_array_eq_ok read with ⟨-, values, found, rfl⟩
  apply Value.nesting_array_le_iff.mpr
  intro inner inValues
  rcases Document.exists_of_mem_values found inner inValues with
    ⟨item, inItems, readItem⟩
  exact each item inItems inner readItem

theorem Document.NestsWithin.object
    {limit : Nat}
    {members : List (String × Document)}
    (each : ∀ member ∈ members, member.2.NestsWithin limit)
    (unclosed : Option Fault) :
    (Document.object members unclosed).NestsWithin (limit + 1) := by
  intro value read
  rcases Document.value_object_eq_ok read with ⟨-, values, found, rfl⟩
  apply Value.nesting_object_le_iff.mpr
  intro inner inOrder
  rcases Document.exists_of_mem_memberValues found inner
      (Members.mem_of_mem_ofList inOrder) with
    ⟨member, inMembers, readMember⟩
  exact each member inMembers inner.2 readMember

namespace Reading

/-- The documents that an open container holds so far. -/
def OpenContainer.contents : OpenContainer → List Document
  | .array items => items
  | .object members | .member members _ => members.map Prod.snd

/-- Whether open containers, the innermost first, nest within the limit. -/
def StackWithin : List OpenContainer → Prop
  | [] => True
  | container :: outer =>
      (∃ room, outer.length + (room + 1) = depthLimit ∧
        ∀ document ∈ OpenContainer.contents container,
          document.NestsWithin room) ∧
      StackWithin outer

/-- Whether what has been read nests within the limit. -/
def Within : Reading → Prop
  | .inside stack _ => StackWithin stack
  | .complete document | .trailing document => document.NestsWithin depthLimit
  | .stopped document => document.Faulty

theorem StackWithin.length_le
    {stack : List OpenContainer}
    (within : StackWithin stack) :
    stack.length ≤ depthLimit := by
  cases stack with
  | nil => exact Nat.zero_le _
  | cons container outer =>
      rcases within with ⟨⟨room, size, -⟩, -⟩
      simp only [List.length_cons]
      omega

theorem within_accept
    {stack : List OpenContainer}
    (within : StackWithin stack)
    {document : Document}
    {room : Nat}
    (size : stack.length + room = depthLimit)
    (fits : document.NestsWithin room) :
    (accept document stack).Within := by
  cases stack with
  | nil =>
      have same : room = depthLimit := by simpa using size
      rw [same] at fits
      exact fits
  | cons container outer =>
      rcases within with ⟨⟨outerRoom, outerSize, contents⟩, outerWithin⟩
      have same : room = outerRoom := by
        simp only [List.length_cons] at size
        omega
      subst same
      cases container with
      | array items =>
          exact ⟨⟨room, outerSize, List.forall_mem_cons.mpr ⟨fits, contents⟩⟩,
            outerWithin⟩
      | object members => exact ⟨⟨room, outerSize, contents⟩, outerWithin⟩
      | member members key =>
          refine ⟨⟨room, outerSize, ?_⟩, outerWithin⟩
          change ∀ inner ∈ document :: members.map Prod.snd,
            inner.NestsWithin room
          exact List.forall_mem_cons.mpr ⟨fits, contents⟩

theorem within_accept_flat
    {stack : List OpenContainer}
    (within : StackWithin stack)
    {document : Document}
    (flat : document.NestsWithin 0) :
    (accept document stack).Within := by
  have size : stack.length + (depthLimit - stack.length) = depthLimit :=
    Nat.add_sub_cancel' within.length_le
  apply within_accept within size
  intro value read
  exact Nat.le_trans (flat value read) (Nat.zero_le _)

theorem within_descend
    {stack : List OpenContainer}
    (within : StackWithin stack)
    {container : OpenContainer}
    (empty : OpenContainer.contents container = [])
    (expected : Expectation)
    {tooDeep : Document}
    (faulty : tooDeep.Faulty) :
    (descend stack container expected tooDeep).Within := by
  rw [descend]
  split
  · rename_i below
    refine ⟨⟨depthLimit - (stack.length + 1), by omega, ?_⟩, within⟩
    rw [empty]
    exact nofun
  · exact faulty_wrap _ faulty stack

theorem faulty_endBetween (stack : List OpenContainer) (fault : Fault) :
    (endBetween stack fault).Faulty := by
  cases stack with
  | nil => exact Document.faulty_broken fault
  | cons container outer =>
      apply faulty_wrap
      cases container with
      | array items => exact Document.faulty_array_unclosed _ _
      | object members => exact Document.faulty_object_unclosed _ _
      | member members key => exact Document.faulty_object_unclosed _ _

theorem within_stepValue
    {stack : List OpenContainer}
    (within : StackWithin stack)
    (token : Token) :
    (stepValue stack token).Within := by
  have flat {document : Document} {value : Value}
      (whole : document.value = .ok value)
      (level : value.nesting = 0) : document.NestsWithin 0 := by
    intro other read
    rw [whole] at read
    cases read
    exact Nat.le_of_eq level
  cases token with
  | null => exact within_accept_flat within (flat rfl rfl)
  | bool value => exact within_accept_flat within (flat rfl rfl)
  | number value => exact within_accept_flat within (flat rfl rfl)
  | string value => exact within_accept_flat within (flat rfl rfl)
  | openArray => exact within_descend within rfl _ Document.faulty_deepArray
  | openObject => exact within_descend within rfl _ Document.faulty_deepObject
  | broken inString fault => exact faulty_wrap _ (Document.faulty_broken _) stack
  | closeArray | closeObject | comma | colon =>
      exact faulty_wrap _ (Document.faulty_broken _) stack

theorem within_stepKey
    {stack : List OpenContainer}
    (within : StackWithin stack)
    (token : Token) :
    (stepKey stack token).Within := by
  unfold stepKey
  split
  · split
    · exact within
    · exact faulty_endBetween _ _
  · exact faulty_endBetween _ _
  · exact faulty_endBetween _ _

theorem within_close
    {stack : List OpenContainer}
    (within : StackWithin stack)
    (token : Token) :
    (close stack token).Within := by
  unfold close
  split
  · rcases within with ⟨⟨room, size, contents⟩, outerWithin⟩
    apply within_accept outerWithin size
    apply Document.NestsWithin.array
    intro item member
    exact contents item (List.mem_reverse.mp member)
  · rcases within with ⟨⟨room, size, contents⟩, outerWithin⟩
    apply within_accept outerWithin size
    apply Document.NestsWithin.object
    intro member inMembers
    exact contents member.2
      (List.mem_map_of_mem (List.mem_reverse.mp inMembers))
  · exact faulty_endBetween _ _

theorem within_continueContainer
    {stack : List OpenContainer}
    (within : StackWithin stack) :
    (continueContainer stack).Within := by
  unfold continueContainer
  split
  · exact within
  · exact within
  · exact faulty_endBetween _ _

/-- Reading a token keeps the nesting within the limit. -/
theorem Within.step
    {reading : Reading}
    (within : reading.Within)
    (token : Token) :
    (reading.step token).Within := by
  unfold Reading.step
  split
  · exact within_stepValue within _
  · exact within_close within _
  · exact within_stepValue within _
  · exact within_stepKey within _
  · exact within_close within _
  · exact within_stepKey within _
  · exact within
  · exact faulty_wrap _ (Document.faulty_broken _) _
  · exact within_continueContainer within
  · exact within_close within _
  · exact within
  · exact within
  · exact within

theorem Within.run
    {reading : Reading}
    (within : reading.Within)
    (tokens : List Token) :
    (reading.run tokens).Within := by
  induction tokens generalizing reading with
  | nil => exact within
  | cons token tokens induction => exact induction (within.step token)

theorem Within.nestsWithin_finish
    {reading : Reading}
    (within : reading.Within) :
    reading.finish.1.NestsWithin depthLimit := by
  unfold finish
  split
  · exact (faulty_wrap _ (Document.faulty_broken _) _).nestsWithin _
  · exact (faulty_wrap _ (Document.faulty_broken _) _).nestsWithin _
  · exact (faulty_endBetween _ _).nestsWithin _
  · exact within
  · exact within
  · exact within.nestsWithin _

end Reading

/-- No text is read as a value that nests deeper than the limit. -/
theorem Document.nestsWithin_read (text : String) :
    (Document.read text).1.NestsWithin depthLimit := by
  have start : Reading.start.Within := trivial
  exact (start.run (tokens text.toList)).nestsWithin_finish

end Json

end Concordance
