import Concordance.Proofs.Json.Shape

/-!
# The tokens of a printed value

`Value.tokens` lists the tokens that write a value.  The text that
`Value.pretty` lays out over several lines is cut into exactly these tokens,
so the layout leaves no trace in what is read.
-/

namespace Concordance.Json

mutual

/-- The tokens that write a value. -/
def Value.tokens : Value → List Token
  | .null => [.null]
  | .bool value => [.bool value]
  | .number value => [.number value]
  | .string value => [.string value]
  | .array [] => [.openArray, .closeArray]
  | .array (item :: items) =>
      .openArray :: (item.tokens ++ Value.itemTokens items)
  | .object [] => [.openObject, .closeObject]
  | .object ((key, value) :: members) =>
      .openObject :: .string key :: .colon ::
        (value.tokens ++ Value.memberTokens members)

/-- The tokens behind the first item of an array. -/
def Value.itemTokens : List Value → List Token
  | [] => [.closeArray]
  | item :: items => .comma :: (item.tokens ++ Value.itemTokens items)

/-- The tokens behind the first member of an object. -/
def Value.memberTokens : List (String × Value) → List Token
  | [] => [.closeObject]
  | (key, value) :: members =>
      .comma :: .string key :: .colon ::
        (value.tokens ++ Value.memberTokens members)

end

/-! ### The pieces of the layout -/

theorem tokens_newLine (depth : Nat) (rest : List Char) :
    Json.tokens (newLine depth ++ rest) = Json.tokens rest := by
  have blanks (count : Nat) :
      Json.tokens (List.replicate count ' ' ++ rest) = Json.tokens rest := by
    induction count with
    | zero => rfl
    | succ count induction =>
        rw [List.replicate_succ, List.cons_append,
          tokens_cons_of_isBlank rfl, induction]
  rw [newLine, List.cons_append, tokens_cons_of_isBlank rfl, blanks]

theorem tokens_colon_blank (rest : List Char) :
    Json.tokens (':' :: ' ' :: rest) = .colon :: Json.tokens rest := by
  rw [tokens_of_readToken rfl rfl, tokens_cons_of_isBlank rfl]

theorem tokens_key (depth : Nat) (key : String) (rest : List Char) :
    Json.tokens (newLine depth ++ (quote key ++ ':' :: ' ' :: rest)) =
      .string key :: .colon :: Json.tokens rest := by
  rw [tokens_newLine, tokens_quote, tokens_colon_blank]

theorem detached_newLine (depth : Nat) (rest : List Char) :
    Detached (newLine depth ++ rest) :=
  detached_cons (by decide) (by decide) (by decide) (by decide) _

theorem detached_prettyItems
    (depth : Nat)
    (items : List Value)
    (rest : List Char) :
    Detached (Value.prettyItems depth items ++ rest) := by
  cases items with
  | nil =>
      rw [Value.prettyItems, List.append_assoc]
      exact detached_newLine depth _
  | cons item items =>
      rw [Value.prettyItems]
      exact detached_cons (by decide) (by decide) (by decide) (by decide) _

theorem detached_prettyMembers
    (depth : Nat)
    (members : Members)
    (rest : List Char) :
    Detached (Value.prettyMembers depth members ++ rest) := by
  cases members with
  | nil =>
      rw [Value.prettyMembers, List.append_assoc]
      exact detached_newLine depth _
  | cons member members =>
      rw [Value.prettyMembers]
      exact detached_cons (by decide) (by decide) (by decide) (by decide) _

/-! ### The whole text -/

mutual

/-- A printed value is cut into its tokens, whatever follows it. -/
theorem Value.tokens_prettyAt
    (depth : Nat)
    {rest : List Char}
    (detached : Detached rest) :
    ∀ value : Value, value.Integral →
      Json.tokens (value.prettyAt depth ++ rest) =
        value.tokens ++ Json.tokens rest
  | .null, _ => by
      exact tokens_of_readToken rfl rfl
  | .bool true, _ => by
      exact tokens_of_readToken rfl rfl
  | .bool false, _ => by
      exact tokens_of_readToken rfl rfl
  | .number (.integer value), integral => by
      cases integral with
      | number whole => exact tokens_integerText whole detached
  | .number (.float value), integral => by
      cases integral with
      | number whole => exact whole.elim
  | .string text, _ => by
      exact tokens_quote text rest
  | .array [], _ => by
      rw [Value.prettyAt, List.cons_append, tokens_of_readToken rfl rfl,
        List.singleton_append, tokens_of_readToken rfl rfl]
      rfl
  | .array (item :: items), integral => by
      cases integral with
      | array each =>
          rcases List.forall_mem_cons.mp each with ⟨first, others⟩
          rw [Value.prettyAt, List.cons_append, List.append_assoc,
            List.append_assoc, tokens_of_readToken rfl rfl, tokens_newLine,
            Value.tokens_prettyAt (depth + 1)
              (detached_prettyItems depth items rest) item first,
            Value.tokens_prettyItems depth rest items others, Value.tokens,
            List.cons_append, List.append_assoc]
  | .object [], _ => by
      rw [Value.prettyAt, List.cons_append, tokens_of_readToken rfl rfl,
        List.singleton_append, tokens_of_readToken rfl rfl]
      rfl
  | .object ((key, value) :: members), integral => by
      cases integral with
      | object each =>
          rcases List.forall_mem_cons.mp each with ⟨first, others⟩
          rw [Value.prettyAt, List.cons_append, List.append_assoc,
            List.append_assoc, List.cons_append, List.cons_append,
            List.append_assoc, tokens_of_readToken rfl rfl, tokens_key,
            Value.tokens_prettyAt (depth + 1)
              (detached_prettyMembers depth members rest) value first,
            Value.tokens_prettyMembers depth rest members others, Value.tokens,
            List.cons_append, List.cons_append, List.cons_append,
            List.append_assoc]

theorem Value.tokens_prettyItems (depth : Nat) (rest : List Char) :
    ∀ items : List Value, (∀ item ∈ items, item.Integral) →
      Json.tokens (Value.prettyItems depth items ++ rest) =
        Value.itemTokens items ++ Json.tokens rest
  | [], _ => by
      rw [Value.prettyItems, List.append_assoc, tokens_newLine,
        List.singleton_append, tokens_of_readToken rfl rfl]
      rfl
  | item :: items, each => by
      rcases List.forall_mem_cons.mp each with ⟨first, others⟩
      rw [Value.prettyItems, List.cons_append, List.append_assoc,
        List.append_assoc, tokens_of_readToken rfl rfl, tokens_newLine,
        Value.tokens_prettyAt (depth + 1)
          (detached_prettyItems depth items rest) item first,
        Value.tokens_prettyItems depth rest items others, Value.itemTokens,
        List.cons_append, List.append_assoc]

theorem Value.tokens_prettyMembers (depth : Nat) (rest : List Char) :
    ∀ members : List (String × Value),
      (∀ member ∈ members, member.2.Integral) →
      Json.tokens (Value.prettyMembers depth members ++ rest) =
        Value.memberTokens members ++ Json.tokens rest
  | [], _ => by
      rw [Value.prettyMembers, List.append_assoc, tokens_newLine,
        List.singleton_append, tokens_of_readToken rfl rfl]
      rfl
  | (key, value) :: members, each => by
      rcases List.forall_mem_cons.mp each with ⟨first, others⟩
      rw [Value.prettyMembers, List.cons_append, List.append_assoc,
        List.append_assoc, List.cons_append, List.cons_append,
        List.append_assoc, tokens_of_readToken rfl rfl, tokens_key,
        Value.tokens_prettyAt (depth + 1)
          (detached_prettyMembers depth members rest) value first,
        Value.tokens_prettyMembers depth rest members others,
        Value.memberTokens, List.cons_append, List.cons_append,
        List.cons_append, List.append_assoc]

end

/-- The text of a value with whole numbers is cut into the value's tokens. -/
theorem Value.tokens_pretty {value : Value} (integral : value.Integral) :
    Json.tokens value.pretty.toList = value.tokens := by
  have whole := Value.tokens_prettyAt 0 detached_nil value integral
  rw [List.append_nil, Json.tokens, List.append_nil] at whole
  rw [Value.pretty, String.toList_ofList, whole]

end Concordance.Json
