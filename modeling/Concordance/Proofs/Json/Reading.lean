import Concordance.Json.Document
import Concordance.Proofs.Json.Printing

/-!
# Documents of printed values

A reader that meets the tokens of a value takes them for that value wherever
a value may stand, as long as no more containers are open than the depth
limit admits.  A value that nests deeper stops the reader, and the document
it is left with has a fault in it.

`Faulty` documents are those that no value corresponds to; a fault inside a
document is never lost by closing the containers around it.
-/

namespace Concordance.Json

/-! ### Faults -/

/-- Whether a document has no value. -/
def Document.Faulty (document : Document) : Prop :=
  ∀ value, document.value ≠ .ok value

theorem Document.faulty_broken (fault : Fault) : (broken fault).Faulty :=
  nofun

theorem Document.faulty_deepArray : deepArray.Faulty :=
  nofun

theorem Document.faulty_deepObject : deepObject.Faulty :=
  nofun

theorem Document.faulty_array_unclosed
    (items : List Document)
    (fault : Fault) :
    (array items (some fault)).Faulty := by
  intro value read
  simp only [Document.value, bind, Except.bind] at read
  split at read <;> cases read

theorem Document.faulty_object_unclosed
    (members : List (String × Document))
    (fault : Fault) :
    (object members (some fault)).Faulty := by
  intro value read
  simp only [Document.value, bind, Except.bind] at read
  split at read <;> cases read

namespace Reading

/-- A fault stays when the containers around it are closed. -/
theorem faulty_wrap
    (fault : Fault)
    {last : Document}
    (faulty : last.Faulty)
    (stack : List OpenContainer) :
    (wrap fault last stack).Faulty := by
  induction stack generalizing last with
  | nil => exact faulty
  | cons container stack induction =>
      cases container with
      | array items => exact induction (Document.faulty_array_unclosed _ _)
      | object members => exact induction (Document.faulty_object_unclosed _ _)
      | member members key => exact induction (Document.faulty_object_unclosed _ _)

/-! ### Several tokens -/

/-- Read several tokens. -/
def run (reading : Reading) (tokens : List Token) : Reading :=
  tokens.foldl step reading

@[simp]
theorem run_nil (reading : Reading) : reading.run [] = reading := rfl

@[simp]
theorem run_cons (reading : Reading) (token : Token) (tokens : List Token) :
    reading.run (token :: tokens) = (reading.step token).run tokens := rfl

theorem run_append (reading : Reading) (first second : List Token) :
    reading.run (first ++ second) = (reading.run first).run second :=
  List.foldl_append

@[simp]
theorem run_stopped (document : Document) (tokens : List Token) :
    (stopped document).run tokens = stopped document := by
  induction tokens with
  | nil => rfl
  | cons token tokens induction => exact induction

/-- The tokens of a value do not begin with the end of an array. -/
theorem run_valueOrEnd (stack : List OpenContainer) (value : Value) :
    (inside stack .valueOrEnd).run value.tokens =
      (inside stack .value).run value.tokens := by
  match value with
  | .null | .bool _ | .number _ | .string _ | .array [] | .array (_ :: _)
  | .object [] | .object (_ :: _) => rfl

theorem step_openArray
    {stack : List OpenContainer}
    (room : stack.length < depthLimit) :
    (inside stack .value).step .openArray =
      inside (.array [] :: stack) .valueOrEnd :=
  if_pos room

theorem step_openObject
    {stack : List OpenContainer}
    (room : stack.length < depthLimit) :
    (inside stack .value).step .openObject =
      inside (.object [] :: stack) .keyOrEnd :=
  if_pos room

/-- Whether a reader has stopped, with a fault in its document. -/
def StopsAtFault (reading : Reading) : Prop :=
  ∃ document : Document, document.Faulty ∧ reading = stopped document

/-- A reader that has stopped reads no further token. -/
theorem StopsAtFault.run
    {reading : Reading}
    (stops : reading.StopsAtFault)
    (tokens : List Token) :
    (reading.run tokens).StopsAtFault := by
  rcases stops with ⟨document, faulty, rfl⟩
  exact ⟨document, faulty, run_stopped document tokens⟩

theorem stopsAtFault_openArray
    {stack : List OpenContainer}
    (full : ¬ stack.length < depthLimit) :
    ((inside stack .value).step .openArray).StopsAtFault :=
  ⟨wrap .malformed .deepArray stack,
    faulty_wrap _ Document.faulty_deepArray stack, if_neg full⟩

theorem stopsAtFault_openObject
    {stack : List OpenContainer}
    (full : ¬ stack.length < depthLimit) :
    ((inside stack .value).step .openObject).StopsAtFault :=
  ⟨wrap .malformed .deepObject stack,
    faulty_wrap _ Document.faulty_deepObject stack, if_neg full⟩

end Reading

/-! ### The document of a value -/

mutual

/-- The document that a reader makes of a printed value. -/
def Value.document : Value → Document
  | .null => .null
  | .bool value => .bool value
  | .number value => .number value
  | .string value => .string value
  | .array items => .array (Value.documents items) none
  | .object members => .object (Value.memberDocuments members) none

/-- The documents of several values. -/
def Value.documents : List Value → List Document
  | [] => []
  | item :: items => item.document :: Value.documents items

/-- The documents of members. -/
def Value.memberDocuments :
    List (String × Value) → List (String × Document)
  | [] => []
  | (key, value) :: members =>
      (key, value.document) :: Value.memberDocuments members

end

theorem Value.documents_eq_map (items : List Value) :
    Value.documents items = items.map Value.document := by
  induction items with
  | nil => rfl
  | cons item items induction => rw [Value.documents, induction, List.map_cons]

/-! ### Values that have room -/

/-- An array fits below open containers if there is room for it and its items fit inside. -/
theorem Value.array_fits_iff {items : List Value} {opened limit : Nat} :
    (Value.array items).nesting + opened ≤ limit ↔
      opened < limit ∧ ∀ item ∈ items, item.nesting + (opened + 1) ≤ limit := by
  constructor
  · intro fits
    obtain ⟨room, rfl⟩ : ∃ room, limit = opened + (room + 1) :=
      ⟨limit - (opened + 1), by simp only [Value.nesting] at fits; omega⟩
    have inside := Value.nesting_array_le_iff.mp
      (show (Value.array items).nesting ≤ room + 1 by omega)
    refine ⟨by omega, ?_⟩
    intro item member
    have := inside item member
    omega
  · rintro ⟨below, inside⟩
    obtain ⟨room, rfl⟩ : ∃ room, limit = opened + (room + 1) :=
      ⟨limit - (opened + 1), by omega⟩
    have : (Value.array items).nesting ≤ room + 1 := by
      apply Value.nesting_array_le_iff.mpr
      intro item member
      have := inside item member
      omega
    omega

/-- An object fits below open containers if there is room for it and its values fit inside. -/
theorem Value.object_fits_iff {members : Members} {opened limit : Nat} :
    (Value.object members).nesting + opened ≤ limit ↔
      opened < limit ∧
        ∀ member ∈ members, member.2.nesting + (opened + 1) ≤ limit := by
  have asItems : (Value.object members).nesting =
      (Value.array (members.map Prod.snd)).nesting := by
    apply Nat.le_antisymm
    · apply Value.nesting_object_le_iff.mpr
      intro member inMembers
      exact Value.itemsNesting_le_iff.mp (Nat.le_refl _) _
        (List.mem_map_of_mem inMembers)
    · apply Value.nesting_array_le_iff.mpr
      intro item inItems
      rcases List.mem_map.mp inItems with ⟨member, inMembers, rfl⟩
      exact Value.membersNesting_le_iff.mp (Nat.le_refl _) member inMembers
  rw [asItems, Value.array_fits_iff, List.forall_mem_map]

namespace Reading

mutual

/-- A value that has room is read as its document. -/
theorem run_tokens :
    ∀ (value : Value) (stack : List OpenContainer),
      value.nesting + stack.length ≤ depthLimit →
      (inside stack .value).run value.tokens = accept value.document stack
  | .null, _, _ => rfl
  | .bool _, _, _ => rfl
  | .number _, _, _ => rfl
  | .string _, _, _ => rfl
  | .array [], stack, room => by
      rcases Value.array_fits_iff.mp room with ⟨below, -⟩
      rw [Value.tokens, run_cons, step_openArray below]
      rfl
  | .array (item :: items), stack, room => by
      rcases Value.array_fits_iff.mp room with ⟨below, each⟩
      rcases List.forall_mem_cons.mp each with ⟨first, others⟩
      rw [Value.tokens, run_cons, step_openArray below, run_append,
        run_valueOrEnd, run_tokens item (.array [] :: stack) first]
      exact run_itemTokens items [item.document] stack others
  | .object [], stack, room => by
      rcases Value.object_fits_iff.mp room with ⟨below, -⟩
      rw [Value.tokens, run_cons, step_openObject below]
      rfl
  | .object ((key, value) :: members), stack, room => by
      rcases Value.object_fits_iff.mp room with ⟨below, each⟩
      rcases List.forall_mem_cons.mp each with ⟨first, others⟩
      rw [Value.tokens, run_cons, step_openObject below]
      change ((inside (.member [] key :: stack) .value).run _) = _
      rw [run_append, run_tokens value (.member [] key :: stack) first]
      exact run_memberTokens members [(key, value.document)] stack others

/-- The rest of an array is read behind the items read so far. -/
theorem run_itemTokens :
    ∀ (items : List Value) (done : List Document) (stack : List OpenContainer),
      (∀ item ∈ items, item.nesting + (stack.length + 1) ≤ depthLimit) →
      (inside (.array done :: stack) .commaOrEnd).run (Value.itemTokens items) =
        accept (.array (done.reverse ++ Value.documents items) none) stack
  | [], done, stack, _ => by
      rw [Value.documents, List.append_nil]
      rfl
  | item :: items, done, stack, each => by
      rcases List.forall_mem_cons.mp each with ⟨first, others⟩
      rw [Value.itemTokens, run_cons]
      change ((inside (.array done :: stack) .value).run _) = _
      rw [run_append, run_tokens item (.array done :: stack) first]
      refine (run_itemTokens items (item.document :: done) stack others).trans ?_
      rw [Value.documents, List.reverse_cons, List.append_assoc,
        List.singleton_append]

/-- The rest of an object is read behind the members read so far. -/
theorem run_memberTokens :
    ∀ (members : List (String × Value)) (done : List (String × Document))
      (stack : List OpenContainer),
      (∀ member ∈ members,
        member.2.nesting + (stack.length + 1) ≤ depthLimit) →
      (inside (.object done :: stack) .commaOrEnd).run
          (Value.memberTokens members) =
        accept (.object (done.reverse ++ Value.memberDocuments members) none)
          stack
  | [], done, stack, _ => by
      rw [Value.memberDocuments, List.append_nil]
      rfl
  | (key, value) :: members, done, stack, each => by
      rcases List.forall_mem_cons.mp each with ⟨first, others⟩
      rw [Value.memberTokens, run_cons]
      change ((inside (.member done key :: stack) .value).run _) = _
      rw [run_append, run_tokens value (.member done key :: stack) first]
      refine (run_memberTokens members ((key, value.document) :: done) stack
        others).trans ?_
      rw [Value.memberDocuments, List.reverse_cons, List.append_assoc,
        List.singleton_append]

end

/-! ### Values that nest too deep -/

mutual

/-- A value without room stops the reader at a fault. -/
theorem run_tokens_deep :
    ∀ (value : Value) (stack : List OpenContainer),
      stack.length ≤ depthLimit →
      ¬ value.nesting + stack.length ≤ depthLimit →
      ((inside stack .value).run value.tokens).StopsAtFault
  | .null, stack, below, deep => by
      exact (deep (by simpa [Value.nesting] using below)).elim
  | .bool _, stack, below, deep => by
      exact (deep (by simpa [Value.nesting] using below)).elim
  | .number _, stack, below, deep => by
      exact (deep (by simpa [Value.nesting] using below)).elim
  | .string _, stack, below, deep => by
      exact (deep (by simpa [Value.nesting] using below)).elim
  | .array [], stack, _, deep => by
      have full : ¬ stack.length < depthLimit :=
        fun room => deep (Value.array_fits_iff.mpr ⟨room, nofun⟩)
      exact (stopsAtFault_openArray full).run _
  | .array (item :: items), stack, _, deep => by
      by_cases room : stack.length < depthLimit
      · have notEach : ¬ ∀ inner ∈ item :: items,
            inner.nesting + (stack.length + 1) ≤ depthLimit :=
          fun each => deep (Value.array_fits_iff.mpr ⟨room, each⟩)
        rw [Value.tokens, run_cons, step_openArray room, run_append,
          run_valueOrEnd]
        by_cases first : item.nesting + (stack.length + 1) ≤ depthLimit
        · rw [run_tokens item (.array [] :: stack) first]
          exact run_itemTokens_deep items [item.document] stack room
            fun others => notEach (List.forall_mem_cons.mpr ⟨first, others⟩)
        · exact (run_tokens_deep item (.array [] :: stack) room first).run _
      · exact (stopsAtFault_openArray room).run _
  | .object [], stack, _, deep => by
      have full : ¬ stack.length < depthLimit :=
        fun room => deep (Value.object_fits_iff.mpr ⟨room, nofun⟩)
      exact (stopsAtFault_openObject full).run _
  | .object ((key, value) :: members), stack, _, deep => by
      by_cases room : stack.length < depthLimit
      · have notEach : ¬ ∀ member ∈ (key, value) :: members,
            member.2.nesting + (stack.length + 1) ≤ depthLimit :=
          fun each => deep (Value.object_fits_iff.mpr ⟨room, each⟩)
        rw [Value.tokens, run_cons, step_openObject room]
        change ((inside (.member [] key :: stack) .value).run _).StopsAtFault
        rw [run_append]
        by_cases first : value.nesting + (stack.length + 1) ≤ depthLimit
        · rw [run_tokens value (.member [] key :: stack) first]
          exact run_memberTokens_deep members [(key, value.document)] stack
            room fun others =>
              notEach (List.forall_mem_cons.mpr ⟨first, others⟩)
        · exact (run_tokens_deep value (.member [] key :: stack) room first).run _
      · exact (stopsAtFault_openObject room).run _

theorem run_itemTokens_deep :
    ∀ (items : List Value) (done : List Document) (stack : List OpenContainer),
      stack.length < depthLimit →
      (¬ ∀ item ∈ items, item.nesting + (stack.length + 1) ≤ depthLimit) →
      ((inside (.array done :: stack) .commaOrEnd).run
        (Value.itemTokens items)).StopsAtFault
  | [], _, _, _, notEach => (notEach nofun).elim
  | item :: items, done, stack, room, notEach => by
      rw [Value.itemTokens, run_cons]
      change ((inside (.array done :: stack) .value).run _).StopsAtFault
      rw [run_append]
      by_cases first : item.nesting + (stack.length + 1) ≤ depthLimit
      · rw [run_tokens item (.array done :: stack) first]
        exact run_itemTokens_deep items (item.document :: done) stack room
          fun others => notEach (List.forall_mem_cons.mpr ⟨first, others⟩)
      · exact (run_tokens_deep item (.array done :: stack) room first).run _

theorem run_memberTokens_deep :
    ∀ (members : List (String × Value)) (done : List (String × Document))
      (stack : List OpenContainer),
      stack.length < depthLimit →
      (¬ ∀ member ∈ members,
        member.2.nesting + (stack.length + 1) ≤ depthLimit) →
      ((inside (.object done :: stack) .commaOrEnd).run
        (Value.memberTokens members)).StopsAtFault
  | [], _, _, _, notEach => (notEach nofun).elim
  | (key, value) :: members, done, stack, room, notEach => by
      rw [Value.memberTokens, run_cons]
      change ((inside (.member done key :: stack) .value).run _).StopsAtFault
      rw [run_append]
      by_cases first : value.nesting + (stack.length + 1) ≤ depthLimit
      · rw [run_tokens value (.member done key :: stack) first]
        exact run_memberTokens_deep members ((key, value.document) :: done)
          stack room fun others =>
            notEach (List.forall_mem_cons.mpr ⟨first, others⟩)
      · exact (run_tokens_deep value (.member done key :: stack) room first).run _

end

end Reading

/-! ### Texts -/

/-- A text with the tokens of a value that nests within the limit is read as its document. -/
theorem Document.read_of_tokens
    {text : String}
    {value : Value}
    (cut : tokens text.toList = value.tokens)
    (shallow : value.nesting ≤ depthLimit) :
    Document.read text = (value.document, none) := by
  rw [Document.read, cut]
  change ((Reading.inside [] .value).run value.tokens).finish = _
  rw [Reading.run_tokens value [] shallow]
  rfl

/-- A text with the tokens of a value that nests too deep is read as a faulty document. -/
theorem Document.faulty_of_tokens
    {text : String}
    {value : Value}
    (cut : tokens text.toList = value.tokens)
    (deep : ¬ value.nesting ≤ depthLimit) :
    (Document.read text).1.Faulty := by
  rw [Document.read, cut]
  change ((Reading.inside [] .value).run value.tokens).finish.1.Faulty
  rcases Reading.run_tokens_deep value [] (Nat.zero_le _) deep with
    ⟨document, faulty, stops⟩
  rw [stops]
  exact faulty

/-- A printed value that nests within the limit is read as its document. -/
theorem Document.read_pretty
    {value : Value}
    (integral : value.Integral)
    (shallow : value.nesting ≤ depthLimit) :
    Document.read value.pretty = (value.document, none) :=
  Document.read_of_tokens (Value.tokens_pretty integral) shallow

/-- A printed value that nests too deep is read as a faulty document. -/
theorem Document.read_pretty_deep
    {value : Value}
    (integral : value.Integral)
    (deep : ¬ value.nesting ≤ depthLimit) :
    (Document.read value.pretty).1.Faulty :=
  Document.faulty_of_tokens (Value.tokens_pretty integral) deep

end Concordance.Json
