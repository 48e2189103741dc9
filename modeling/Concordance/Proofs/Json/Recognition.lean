import Concordance.Proofs.Json.Documents
import Concordance.Proofs.Json.Grammar

/-!
# The texts that are read without a fault

A reader that comes to the end of a text with a complete document has read
the tokens of one value, and the document is that of the value: wherever a
value is expected, the tokens that follow begin with those of a value
(`readsValue`), and with a stack of open containers what is left closes them.
Together with the grammar this says which texts have a value at all, and what
their document is (`Document.read_eq_iff`).
-/

namespace Concordance.Json

namespace Reading

variable {stack : List OpenContainer} {document : Document} {rest : List Token}

/-! ### Readers that do not complete a document -/

theorem run_trailing (document : Document) (tokens : List Token) :
    (trailing document).run tokens = trailing document := by
  induction tokens with
  | nil => rfl
  | cons token tokens induction => exact induction

theorem not_complete_of_stopped
    {stoppedAt : Document}
    (read : (stopped stoppedAt).run rest = complete document) :
    False := by
  rw [run_stopped] at read
  cases read

theorem StopsAtFault.not_complete
    {reading : Reading}
    (stops : reading.StopsAtFault)
    (read : reading.run rest = complete document) :
    False := by
  rcases stops with ⟨stoppedAt, -, rfl⟩
  exact not_complete_of_stopped read

/-- A complete document stays what it is only if nothing follows it. -/
theorem eq_of_run_complete
    {given : Document}
    (read : (complete given).run rest = complete document) :
    rest = [] ∧ given = document := by
  cases rest with
  | nil =>
      cases read
      exact ⟨rfl, rfl⟩
  | cons token rest =>
      rw [run_cons] at read
      change (trailing given).run rest = _ at read
      rw [run_trailing] at read
      cases read

/-! ### Tokens of values -/

/-- Whether tokens that complete a document where a value is expected begin with a value. -/
def ReadsValue (tokens : List Token) : Prop :=
  ∀ {stack document}, (inside stack .value).run tokens = complete document →
    ∃ (value : Value) (rest : List Token), tokens = value.tokens ++ rest ∧
      (accept value.document stack).run rest = complete document

/-- Behind an item there are further items and the end of the array. -/
theorem exists_items_of_run
    {bound : Nat}
    (shorter : ∀ tokens, tokens.length < bound → ReadsValue tokens)
    {tokens : List Token}
    (short : tokens.length ≤ bound)
    {done : List Document}
    (read : (inside (.array done :: stack) .commaOrEnd).run tokens = complete document) :
    ∃ items rest, tokens = Value.itemTokens items ++ rest ∧
      (accept (.array (done.reverse ++ Value.documents items) none) stack).run rest =
        complete document := by
  induction bound generalizing tokens done with
  | zero =>
      rw [List.length_eq_zero_iff.mp (Nat.le_zero.mp short)] at read
      cases read
  | succ bound induction =>
      cases tokens with
      | nil => cases read
      | cons token tokens =>
          have fewer : tokens.length ≤ bound := Nat.le_of_succ_le_succ short
          rw [run_cons] at read
          cases token with
          | closeArray =>
              refine ⟨[], tokens, rfl, ?_⟩
              rw [Value.documents, List.append_nil]
              exact read
          | comma =>
              rcases shorter tokens (Nat.lt_succ_of_le fewer) read with
                ⟨item, after, rfl, readAfter⟩
              have lessLeft : after.length ≤ bound := by
                rw [List.length_append] at fewer
                omega
              rcases induction (fun inner less => shorter inner (Nat.lt_succ_of_lt less))
                  lessLeft readAfter with
                ⟨items, rest, rfl, readRest⟩
              refine ⟨item :: items, rest, ?_, ?_⟩
              · rw [Value.itemTokens, List.cons_append, List.append_assoc]
              · rwa [List.reverse_cons, List.append_assoc, List.singleton_append] at readRest
          | _ => exact (not_complete_of_stopped read).elim

/-- Where a key is expected, a key, a colon and a value follow. -/
theorem exists_member_of_run
    {tokens : List Token}
    (shorter : ∀ inner, inner.length < tokens.length → ReadsValue inner)
    {done : List (String × Document)}
    (read : (inside (.object done :: stack) .key).run tokens = complete document) :
    ∃ (key : String) (value : Value) (rest : List Token),
      tokens = .string key :: .colon :: (value.tokens ++ rest) ∧
      (inside (.object ((key, value.document) :: done) :: stack) .commaOrEnd).run rest =
        complete document := by
  cases tokens with
  | nil => cases read
  | cons token tokens =>
      rw [run_cons] at read
      cases token with
      | string key =>
          cases tokens with
          | nil => cases read
          | cons token tokens =>
              rw [run_cons] at read
              cases token with
              | colon =>
                  have fewer : tokens.length < tokens.length + 1 + 1 := by omega
                  rcases shorter tokens fewer read with ⟨value, rest, rfl, readRest⟩
                  exact ⟨key, value, rest, rfl, readRest⟩
              | _ => exact (not_complete_of_stopped read).elim
      | broken inString fault =>
          cases inString <;> exact (not_complete_of_stopped read).elim
      | _ => exact (not_complete_of_stopped read).elim

/-- Behind a member there are further members and the end of the object. -/
theorem exists_members_of_run
    {bound : Nat}
    (shorter : ∀ tokens, tokens.length < bound → ReadsValue tokens)
    {tokens : List Token}
    (short : tokens.length ≤ bound)
    {done : List (String × Document)}
    (read : (inside (.object done :: stack) .commaOrEnd).run tokens = complete document) :
    ∃ members rest, tokens = Value.memberTokens members ++ rest ∧
      (accept (.object (done.reverse ++ Value.memberDocuments members) none)
        stack).run rest = complete document := by
  induction bound generalizing tokens done with
  | zero =>
      rw [List.length_eq_zero_iff.mp (Nat.le_zero.mp short)] at read
      cases read
  | succ bound induction =>
      cases tokens with
      | nil => cases read
      | cons token tokens =>
          have fewer : tokens.length ≤ bound := Nat.le_of_succ_le_succ short
          rw [run_cons] at read
          cases token with
          | closeObject =>
              refine ⟨[], tokens, rfl, ?_⟩
              rw [Value.memberDocuments, List.append_nil]
              exact read
          | comma =>
              rcases exists_member_of_run
                  (fun inner less => shorter inner (by omega)) read with
                ⟨key, value, after, rfl, readAfter⟩
              have lessLeft : after.length ≤ bound := by
                simp only [List.length_cons, List.length_append] at fewer
                omega
              rcases induction (fun inner less => shorter inner (Nat.lt_succ_of_lt less))
                  lessLeft readAfter with
                ⟨members, rest, rfl, readRest⟩
              refine ⟨(key, value) :: members, rest, ?_, ?_⟩
              · rw [Value.memberTokens, List.cons_append, List.cons_append,
                  List.cons_append, List.append_assoc]
              · rwa [List.reverse_cons, List.append_assoc, List.singleton_append] at readRest
          | _ => exact (not_complete_of_stopped read).elim

theorem run_valueOrEnd_cons
    {token : Token}
    (notEnd : token ≠ .closeArray)
    (stack : List OpenContainer)
    (rest : List Token) :
    (inside stack .valueOrEnd).run (token :: rest) =
      (inside stack .value).run (token :: rest) := by
  cases token with
  | closeArray => exact (notEnd rfl).elim
  | _ => rfl

theorem run_keyOrEnd_cons
    {token : Token}
    (notEnd : token ≠ .closeObject)
    (stack : List OpenContainer)
    (rest : List Token) :
    (inside stack .keyOrEnd).run (token :: rest) =
      (inside stack .key).run (token :: rest) := by
  cases token with
  | closeObject => exact (notEnd rfl).elim
  | _ => rfl

/-- Behind an opening bracket there are the items of an array and its end. -/
theorem exists_array_of_run
    {tokens : List Token}
    (shorter : ∀ inner, inner.length ≤ tokens.length → ReadsValue inner)
    (read : (inside (.array [] :: stack) .valueOrEnd).run tokens = complete document) :
    ∃ items rest, .openArray :: tokens = (Value.array items).tokens ++ rest ∧
      (accept (Value.array items).document stack).run rest = complete document := by
  cases tokens with
  | nil => cases read
  | cons first tokens =>
      by_cases atEnd : first = .closeArray
      · subst atEnd
        exact ⟨[], tokens, rfl, read⟩
      · rw [run_valueOrEnd_cons atEnd] at read
        rcases shorter _ (Nat.le_refl _) read with ⟨item, after, same, readAfter⟩
        have size : after.length ≤ (first :: tokens).length := by
          rw [same, List.length_append]
          exact Nat.le_add_left _ _
        rcases exists_items_of_run
            (fun inner less => shorter inner (Nat.le_of_lt (Nat.lt_of_lt_of_le less size)))
            (Nat.le_refl after.length) readAfter with
          ⟨items, rest, rfl, readRest⟩
        refine ⟨item :: items, rest, ?_, readRest⟩
        rw [same, Value.tokens, List.cons_append, List.append_assoc]

/-- Behind an opening brace there are the members of an object and its end. -/
theorem exists_object_of_run
    {tokens : List Token}
    (shorter : ∀ inner, inner.length ≤ tokens.length → ReadsValue inner)
    (read : (inside (.object [] :: stack) .keyOrEnd).run tokens = complete document) :
    ∃ members rest, .openObject :: tokens = (Value.object members).tokens ++ rest ∧
      (accept (Value.object members).document stack).run rest = complete document := by
  cases tokens with
  | nil => cases read
  | cons first tokens =>
      by_cases atEnd : first = .closeObject
      · subst atEnd
        exact ⟨[], tokens, rfl, read⟩
      · rw [run_keyOrEnd_cons atEnd] at read
        rcases exists_member_of_run
            (fun inner less => shorter inner (Nat.le_of_lt less)) read with
          ⟨key, value, after, same, readAfter⟩
        have size : after.length ≤ (first :: tokens).length := by
          rw [same, List.length_cons, List.length_cons, List.length_append]
          omega
        rcases exists_members_of_run
            (fun inner less => shorter inner (Nat.le_of_lt (Nat.lt_of_lt_of_le less size)))
            (Nat.le_refl after.length) readAfter with
          ⟨members, rest, rfl, readRest⟩
        refine ⟨(key, value) :: members, rest, ?_, readRest⟩
        rw [same, Value.tokens, List.cons_append, List.cons_append, List.cons_append,
          List.append_assoc]

/-- Wherever a value is expected, tokens that complete a document begin with a value. -/
theorem readsValue (tokens : List Token) : ReadsValue tokens := by
  induction size : tokens.length using Nat.strongRecOn generalizing tokens with
  | ind length induction =>
      subst size
      intro stack document read
      cases tokens with
      | nil => cases read
      | cons token tokens =>
          have shorter (inner : List Token) (less : inner.length ≤ tokens.length) :
              ReadsValue inner :=
            induction inner.length (Nat.lt_succ_of_le less) inner rfl
          rw [run_cons] at read
          cases token with
          | null => exact ⟨.null, tokens, rfl, read⟩
          | bool value => exact ⟨.bool value, tokens, rfl, read⟩
          | number value => exact ⟨.number value, tokens, rfl, read⟩
          | string value => exact ⟨.string value, tokens, rfl, read⟩
          | openArray =>
              have room : stack.length < depthLimit :=
                Decidable.byContradiction fun full =>
                  (stopsAtFault_openArray full).not_complete read
              rw [step_openArray room] at read
              rcases exists_array_of_run shorter read with ⟨items, found⟩
              exact ⟨.array items, found⟩
          | openObject =>
              have room : stack.length < depthLimit :=
                Decidable.byContradiction fun full =>
                  (stopsAtFault_openObject full).not_complete read
              rw [step_openObject room] at read
              rcases exists_object_of_run shorter read with ⟨members, found⟩
              exact ⟨.object members, found⟩
          | _ => exact (not_complete_of_stopped read).elim

/-- Tokens that complete a document are those of a value within the depth limit. -/
theorem exists_value_of_run
    {tokens : List Token}
    (read : start.run tokens = complete document) :
    ∃ value : Value, tokens = value.tokens ∧ value.nesting ≤ depthLimit ∧
      document = value.document := by
  rcases readsValue tokens read with ⟨value, rest, rfl, readRest⟩
  rcases eq_of_run_complete readRest with ⟨rfl, rfl⟩
  rw [List.append_nil] at read ⊢
  refine ⟨value, rfl, ?_, rfl⟩
  by_cases shallow : value.nesting ≤ depthLimit
  · exact shallow
  · have stops := run_tokens_deep value [] (Nat.zero_le _) shallow
    have ended : ((inside [] .value).run value.tokens).run [] = complete value.document :=
      read
    exact (stops.not_complete ended).elim

/-- A reader that is left with a document without fault, and nothing behind it, has completed it. -/
theorem complete_of_finish
    {reading : Reading}
    (within : reading.Within)
    (ends : reading.finish = (document, none))
    (sound : ¬ document.Faulty) :
    reading = complete document := by
  cases reading with
  | complete given =>
      cases ends
      rfl
  | trailing given => cases ends
  | stopped given =>
      cases ends
      exact (sound within).elim
  | inside stack expected =>
      have faulty : (inside stack expected).finish.1.Faulty := by
        unfold finish
        split
        · exact faulty_wrap _ (Document.faulty_broken _) _
        · exact faulty_wrap _ (Document.faulty_broken _) _
        · exact faulty_endBetween _ _
        all_goals rename_i impossible
        all_goals cases impossible
      rw [ends] at faulty
      exact (sound faulty).elim

end Reading

/-! ### Texts -/

/--
A text is read as a document without fault, and nothing behind it, exactly if
it spells a value that nests within the limit.
-/
theorem Document.read_eq_iff {text : String} {document : Document} :
    Document.read text = (document, none) ∧ ¬ document.Faulty ↔
      ∃ value : Value, value.Padded text.toList ∧ value.nesting ≤ depthLimit ∧
        document = value.document := by
  constructor
  · rintro ⟨read, sound⟩
    have start : Reading.start.Within := trivial
    have complete := Reading.complete_of_finish (start.run (tokens text.toList)) read sound
    rcases Reading.exists_value_of_run complete with ⟨value, cut, shallow, same⟩
    exact ⟨value, tokens_eq_iff_padded.mp cut, shallow, same⟩
  · rintro ⟨value, padded, shallow, rfl⟩
    refine ⟨Document.read_of_tokens (tokens_eq_iff_padded.mpr padded) shallow, ?_⟩
    exact fun faulty => faulty _ value.value_document

/-- The value of a text is the one that it spells, with the members of every object in order. -/
theorem Value.read_eq_ok_iff {text : String} {result : Value} :
    Value.read text = .ok result ↔
      ∃ value : Value, value.Padded text.toList ∧ value.nesting ≤ depthLimit ∧
        result = value.sorted := by
  constructor
  · intro read
    rcases found : Document.read text with ⟨document, trailing⟩
    rw [Value.read, found, bind_eq_ok_iff] at read
    rcases read with ⟨given, whole, ends⟩
    cases trailing with
    | some fault => cases ends
    | none =>
        cases ends
        have sound : ¬ document.Faulty := fun faulty => faulty _ whole
        rcases Document.read_eq_iff.mp ⟨found, sound⟩ with ⟨value, padded, shallow, rfl⟩
        rw [Value.value_document] at whole
        cases whole
        exact ⟨value, padded, shallow, rfl⟩
  · rintro ⟨value, padded, shallow, rfl⟩
    exact Value.read_of_tokens (tokens_eq_iff_padded.mpr padded) shallow

end Concordance.Json
