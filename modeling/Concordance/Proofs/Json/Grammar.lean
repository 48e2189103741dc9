import Concordance.Proofs.Json.Lexicon
import Concordance.Proofs.Json.Printing

/-!
# The grammar of JSON texts

The grammar of RFC 8259 as a relation between values and the texts that spell
them.  The members of a value stand here in the order of the text, and a key
may be repeated.  A text with blanks around it spells a value exactly if it is
cut into the tokens of that value (`tokens_eq_iff_padded`): blanks leave no
trace among the tokens, and where one token ends the next one does not go on
with it, since a value is always followed by a blank, a comma, a closing
bracket or the end.
-/

namespace Concordance.Json

mutual

/-- The spellings of a value. -/
inductive Value.Spelled : Value → List Char → Prop where
  | null {text : List Char}
      (token : Token.Spelled .null text) :
      Value.Spelled .null text
  | bool {value : Bool} {text : List Char}
      (token : Token.Spelled (.bool value) text) :
      Value.Spelled (.bool value) text
  | number {number : Number} {text : List Char}
      (token : Token.Spelled (.number number) text) :
      Value.Spelled (.number number) text
  | string {given : String} {text : List Char}
      (token : Token.Spelled (.string given) text) :
      Value.Spelled (.string given) text
  | emptyArray {blank : List Char}
      (isBlank : Blank blank) :
      Value.Spelled (.array []) ('[' :: (blank ++ [']']))
  | array {items : List Value} {text : List Char}
      (inside : ItemsSpelled items text) :
      Value.Spelled (.array items) ('[' :: (text ++ [']']))
  | emptyObject {blank : List Char}
      (isBlank : Blank blank) :
      Value.Spelled (.object []) ('\x7b' :: (blank ++ ['\x7d']))
  | object {members : List (String × Value)} {text : List Char}
      (inside : MembersSpelled members text) :
      Value.Spelled (.object members) ('\x7b' :: (text ++ ['\x7d']))

/-- The spellings of a value, with blanks around them. -/
inductive Value.Padded : Value → List Char → Prop where
  | blanks {value : Value} {before body after : List Char}
      (front : Blank before)
      (spelled : Value.Spelled value body)
      (back : Blank after) :
      Value.Padded value (before ++ (body ++ after))

/-- The spellings of the items of an array, with commas between them. -/
inductive ItemsSpelled : List Value → List Char → Prop where
  | single {item : Value} {text : List Char}
      (only : Value.Padded item text) :
      ItemsSpelled [item] text
  | cons {item : Value} {items : List Value} {text texts : List Char}
      (first : Value.Padded item text)
      (others : ItemsSpelled items texts) :
      ItemsSpelled (item :: items) (text ++ ',' :: texts)

/-- The spellings of a member: its key, a colon and its value. -/
inductive MemberSpelled : String → Value → List Char → Prop where
  | colon {key : String} {value : Value} {before keyText after text : List Char}
      (front : Blank before)
      (name : Token.Spelled (.string key) keyText)
      (back : Blank after)
      (spelled : Value.Padded value text) :
      MemberSpelled key value (before ++ (keyText ++ (after ++ ':' :: text)))

/-- The spellings of the members of an object, with commas between them. -/
inductive MembersSpelled : List (String × Value) → List Char → Prop where
  | single {key : String} {value : Value} {text : List Char}
      (only : MemberSpelled key value text) :
      MembersSpelled [(key, value)] text
  | cons {key : String} {value : Value} {members : List (String × Value)}
      {text texts : List Char}
      (first : MemberSpelled key value text)
      (others : MembersSpelled members texts) :
      MembersSpelled ((key, value) :: members) (text ++ ',' :: texts)

end

/-! ### Punctuation -/

theorem Blank.detached_append
    {blank rest : List Char}
    (isBlank : Blank blank)
    (detached : Detached rest) :
    Detached (blank ++ rest) := by
  cases blank with
  | nil => exact detached
  | cons char blank =>
      have first := isBlank char List.mem_cons_self
      simp only [Json.isBlank, Bool.or_eq_true, beq_iff_eq] at first
      rcases first with ((rfl | rfl) | rfl) | rfl
      all_goals exact detached_cons (by decide) (by decide) (by decide) (by decide) _

theorem detached_of_punctuation
    {mark : Char}
    (punctuation : mark ∈ [',', ':', ']', '\x7d'])
    (rest : List Char) :
    Detached (mark :: rest) := by
  simp only [List.mem_cons, List.not_mem_nil, or_false] at punctuation
  rcases punctuation with rfl | rfl | rfl | rfl
  all_goals exact detached_cons (by decide) (by decide) (by decide) (by decide) _

/-- The character of a punctuation mark. -/
def Token.mark? : Token → Option Char
  | .openArray => some '['
  | .closeArray => some ']'
  | .openObject => some '\x7b'
  | .closeObject => some '\x7d'
  | .comma => some ','
  | .colon => some ':'
  | _ => none

theorem Token.Spelled.eq_mark
    {token : Token}
    {body : List Char}
    (spelled : token.Spelled body)
    {mark : Char}
    (isMark : token.mark? = some mark) :
    body = [mark] := by
  cases spelled <;> cases isMark <;> rfl

/-- A punctuation mark that is found as the first token stands behind blanks. -/
theorem exists_mark_of_tokens
    {text : List Char}
    {token : Token}
    {others : List Token}
    (cut : tokens text = token :: others)
    {mark : Char}
    (isMark : token.mark? = some mark) :
    ∃ before after, text = before ++ mark :: after ∧ Blank before ∧
      tokens after = others := by
  have whole : ∀ inString fault, token ≠ .broken inString fault := by
    rintro _ _ rfl
    cases isMark
  rcases exists_spelled_of_tokens cut whole with
    ⟨before, body, after, rfl, isBlank, spelled, rest⟩
  rcases spelled.eq_mark isMark with rfl
  exact ⟨before, after, rfl, isBlank, rest⟩

/-! ### Spellings are cut into the tokens of the value -/

/-- Whether every spelling of a value is cut into its tokens. -/
def Value.IsCut (value : Value) : Prop :=
  ∀ {body rest : List Char}, value.Spelled body → Detached rest →
    Json.tokens (body ++ rest) = value.tokens ++ Json.tokens rest

theorem Value.IsCut.padded
    {value : Value}
    (isCut : value.IsCut)
    {text rest : List Char}
    (padded : value.Padded text)
    (detached : Detached rest) :
    Json.tokens (text ++ rest) = value.tokens ++ Json.tokens rest := by
  cases padded with
  | blanks front spelled back =>
      rw [List.append_assoc, List.append_assoc, tokens_append_of_blank front,
        isCut spelled (back.detached_append detached), tokens_append_of_blank back]

theorem tokens_items
    {item : Value}
    {items : List Value}
    (each : ∀ inner ∈ item :: items, inner.IsCut)
    {text : List Char}
    (spelled : ItemsSpelled (item :: items) text)
    (rest : List Char) :
    tokens (text ++ ']' :: rest) =
      item.tokens ++ (Value.itemTokens items ++ tokens rest) := by
  induction items generalizing item text with
  | nil =>
      cases spelled with
      | single only =>
          have isCut : item.IsCut := each item List.mem_cons_self
          rw [isCut.padded only (detached_of_punctuation (by decide) _),
            tokens_of_readToken rfl rfl]
          rfl
      | cons _ none => cases none
  | cons next items induction =>
      rcases List.forall_mem_cons.mp each with ⟨firstCut, othersCut⟩
      cases spelled with
      | cons first others =>
          rw [List.append_assoc, List.cons_append,
            firstCut.padded first (detached_of_punctuation (by decide) _),
            tokens_of_readToken rfl rfl, induction othersCut others,
            Value.itemTokens, List.cons_append, List.append_assoc]

theorem tokens_member
    {key : String}
    {value : Value}
    (isCut : value.IsCut)
    {text rest : List Char}
    (spelled : MemberSpelled key value text)
    (detached : Detached rest) :
    tokens (text ++ rest) =
      .string key :: .colon :: (value.tokens ++ tokens rest) := by
  cases spelled with
  | colon front name back padded =>
      rw [List.append_assoc, List.append_assoc, List.append_assoc, List.cons_append,
        tokens_append_of_blank front, tokens_append_of_spelled name nofun,
        tokens_append_of_blank back, tokens_of_readToken rfl rfl,
        isCut.padded padded detached]

theorem tokens_members
    {key : String}
    {value : Value}
    {members : List (String × Value)}
    (each : ∀ member ∈ (key, value) :: members, member.2.IsCut)
    {text : List Char}
    (spelled : MembersSpelled ((key, value) :: members) text)
    (rest : List Char) :
    tokens (text ++ '\x7d' :: rest) =
      .string key :: .colon ::
        (value.tokens ++ (Value.memberTokens members ++ tokens rest)) := by
  induction members generalizing key value text with
  | nil =>
      cases spelled with
      | single only =>
          rw [tokens_member (each _ List.mem_cons_self) only
            (detached_of_punctuation (by decide) _), tokens_of_readToken rfl rfl]
          rfl
      | cons _ none => cases none
  | cons next members induction =>
      rcases next with ⟨nextKey, nextValue⟩
      rcases List.forall_mem_cons.mp each with ⟨firstCut, othersCut⟩
      cases spelled with
      | cons first others =>
          rw [List.append_assoc, List.cons_append,
            tokens_member firstCut first (detached_of_punctuation (by decide) _),
            tokens_of_readToken rfl rfl, induction othersCut others,
            Value.memberTokens, List.cons_append, List.cons_append, List.cons_append,
            List.append_assoc]

/-- A spelling of a value is cut into its tokens, whatever follows at a distance. -/
theorem Value.isCut (value : Value) : value.IsCut := by
  intro body rest spelled detached
  induction value generalizing body rest with
  | null | bool _ | number _ | string _ =>
      cases spelled with
      | _ token => exact tokens_append_of_spelled token fun _ _ => detached
  | array items induction =>
      cases spelled with
      | emptyArray isBlank =>
          rw [List.cons_append, List.append_assoc, tokens_of_readToken rfl rfl,
            tokens_append_of_blank isBlank, List.singleton_append,
            tokens_of_readToken rfl rfl]
          rfl
      | array inside =>
          cases items with
          | nil => cases inside
          | cons item items =>
              rw [List.cons_append, List.append_assoc, tokens_of_readToken rfl rfl,
                List.singleton_append, tokens_items induction inside, Value.tokens,
                List.cons_append, List.append_assoc]
  | object members induction =>
      cases spelled with
      | emptyObject isBlank =>
          rw [List.cons_append, List.append_assoc, tokens_of_readToken rfl rfl,
            tokens_append_of_blank isBlank, List.singleton_append,
            tokens_of_readToken rfl rfl]
          rfl
      | object inside =>
          cases members with
          | nil => cases inside
          | cons member members =>
              rcases member with ⟨key, value⟩
              rw [List.cons_append, List.append_assoc, tokens_of_readToken rfl rfl,
                List.singleton_append, tokens_members induction inside, Value.tokens,
                List.cons_append, List.cons_append, List.cons_append, List.append_assoc]

/-! ### Texts that are cut into the tokens of a value spell it -/

/-- Whether a text that begins with the tokens of a value begins with a spelling of it. -/
def Value.IsSpelled (value : Value) : Prop :=
  ∀ {text : List Char} {others : List Token},
    Json.tokens text = value.tokens ++ others →
    ∃ before body after, text = before ++ (body ++ after) ∧ Blank before ∧
      value.Spelled body ∧ Json.tokens after = others

theorem isSpelled_of_token
    {value : Value}
    {token : Token}
    (single : value.tokens = [token])
    (spelled : ∀ {body}, token.Spelled body → value.Spelled body)
    (whole : ∀ inString fault, token ≠ .broken inString fault) :
    value.IsSpelled := by
  intro text others cut
  rw [single, List.singleton_append] at cut
  rcases exists_spelled_of_tokens cut whole with
    ⟨before, body, after, same, blank, tokenSpelled, rest⟩
  exact ⟨before, body, after, same, blank, spelled tokenSpelled, rest⟩

theorem exists_items_of_tokens
    {item : Value}
    {items : List Value}
    (each : ∀ inner ∈ item :: items, inner.IsSpelled)
    {text : List Char}
    {others : List Token}
    (cut : tokens text = item.tokens ++ (Value.itemTokens items ++ others)) :
    ∃ body after, text = body ++ ']' :: after ∧ ItemsSpelled (item :: items) body ∧
      tokens after = others := by
  induction items generalizing item text with
  | nil =>
      have isSpelled : item.IsSpelled := each item List.mem_cons_self
      rcases isSpelled cut with ⟨before, body, _, rfl, front, spelled, cutEnd⟩
      rcases exists_mark_of_tokens cutEnd rfl with ⟨blank, after, rfl, back, rest⟩
      refine ⟨before ++ (body ++ blank), after, ?_,
        .single (.blanks front spelled back), rest⟩
      simp only [List.append_assoc]
  | cons next items induction =>
      rcases List.forall_mem_cons.mp each with ⟨firstSpelled, othersSpelled⟩
      rcases firstSpelled cut with ⟨before, body, _, rfl, front, spelled, cutComma⟩
      rw [Value.itemTokens, List.cons_append, List.append_assoc] at cutComma
      rcases exists_mark_of_tokens cutComma rfl with ⟨blank, _, rfl, back, cutNext⟩
      rcases induction othersSpelled cutNext with ⟨texts, after, rfl, itemsSpelled, rest⟩
      refine ⟨before ++ (body ++ blank) ++ ',' :: texts, after, ?_,
        .cons (.blanks front spelled back) itemsSpelled, rest⟩
      simp only [List.append_assoc, List.cons_append]

/-- The text of a member begins with its key, a colon and the text of its value. -/
theorem exists_member_of_tokens
    {key : String}
    {value : Value}
    (isSpelled : value.IsSpelled)
    {text : List Char}
    {others : List Token}
    (cut : tokens text = .string key :: .colon :: (value.tokens ++ others)) :
    ∃ body after, text = body ++ after ∧
      (∀ {blank}, Blank blank → MemberSpelled key value (body ++ blank)) ∧
      tokens after = others := by
  rcases exists_spelled_of_tokens cut nofun with
    ⟨before, keyText, _, rfl, front, name, cutColon⟩
  rcases exists_mark_of_tokens cutColon rfl with ⟨blank, _, rfl, back, cutValue⟩
  rcases isSpelled cutValue with ⟨start, body, after, rfl, begins, spelled, rest⟩
  refine ⟨before ++ (keyText ++ (blank ++ ':' :: (start ++ body))), after, ?_, ?_, rest⟩
  · simp only [List.append_assoc, List.cons_append]
  · intro trailing ends
    have member : MemberSpelled key value
        (before ++ (keyText ++ (blank ++ ':' :: (start ++ (body ++ trailing))))) :=
      .colon front name back (.blanks begins spelled ends)
    simpa only [List.append_assoc, List.cons_append] using member

theorem exists_members_of_tokens
    {key : String}
    {value : Value}
    {members : List (String × Value)}
    (each : ∀ member ∈ (key, value) :: members, member.2.IsSpelled)
    {text : List Char}
    {others : List Token}
    (cut : tokens text =
      .string key :: .colon ::
        (value.tokens ++ (Value.memberTokens members ++ others))) :
    ∃ body after, text = body ++ '\x7d' :: after ∧
      MembersSpelled ((key, value) :: members) body ∧ tokens after = others := by
  induction members generalizing key value text with
  | nil =>
      have isSpelled : value.IsSpelled := each _ List.mem_cons_self
      rcases exists_member_of_tokens isSpelled cut with ⟨body, _, rfl, spelled, cutEnd⟩
      rcases exists_mark_of_tokens cutEnd rfl with ⟨blank, after, rfl, back, rest⟩
      refine ⟨body ++ blank, after, ?_, .single (spelled back), rest⟩
      rw [List.append_assoc]
  | cons next members induction =>
      rcases next with ⟨nextKey, nextValue⟩
      rcases List.forall_mem_cons.mp each with ⟨firstSpelled, othersSpelled⟩
      rcases exists_member_of_tokens firstSpelled cut with ⟨body, _, rfl, spelled, cutComma⟩
      rw [Value.memberTokens, List.cons_append, List.cons_append, List.cons_append,
        List.append_assoc] at cutComma
      rcases exists_mark_of_tokens cutComma rfl with ⟨blank, _, rfl, back, cutNext⟩
      rcases induction othersSpelled cutNext with ⟨texts, after, rfl, membersSpelled, rest⟩
      refine ⟨body ++ blank ++ ',' :: texts, after, ?_,
        .cons (spelled back) membersSpelled, rest⟩
      simp only [List.append_assoc, List.cons_append]

/-- A text that begins with the tokens of a value begins with a spelling of it. -/
theorem Value.isSpelled (value : Value) : value.IsSpelled := by
  induction value with
  | null => exact isSpelled_of_token rfl .null nofun
  | bool given => exact isSpelled_of_token rfl .bool nofun
  | number given => exact isSpelled_of_token rfl .number nofun
  | string given => exact isSpelled_of_token rfl .string nofun
  | array items induction =>
      intro text others cut
      cases items with
      | nil =>
          rcases exists_mark_of_tokens cut rfl with ⟨before, _, rfl, front, cutEnd⟩
          rcases exists_mark_of_tokens cutEnd rfl with ⟨blank, after, rfl, inside, rest⟩
          refine ⟨before, '[' :: (blank ++ [']']), after, ?_, front, .emptyArray inside, rest⟩
          simp only [List.append_assoc, List.cons_append, List.nil_append]
      | cons item items =>
          rw [Value.tokens, List.cons_append, List.append_assoc] at cut
          rcases exists_mark_of_tokens cut rfl with ⟨before, _, rfl, front, cutItems⟩
          rcases exists_items_of_tokens induction cutItems with
            ⟨body, after, rfl, inside, rest⟩
          refine ⟨before, '[' :: (body ++ [']']), after, ?_, front, .array inside, rest⟩
          simp only [List.append_assoc, List.cons_append, List.nil_append]
  | object members induction =>
      intro text others cut
      cases members with
      | nil =>
          rcases exists_mark_of_tokens cut rfl with ⟨before, _, rfl, front, cutEnd⟩
          rcases exists_mark_of_tokens cutEnd rfl with ⟨blank, after, rfl, inside, rest⟩
          refine ⟨before, '\x7b' :: (blank ++ ['\x7d']), after, ?_, front,
            .emptyObject inside, rest⟩
          simp only [List.append_assoc, List.cons_append, List.nil_append]
      | cons member members =>
          rcases member with ⟨key, value⟩
          rw [Value.tokens, List.cons_append, List.cons_append, List.cons_append,
            List.append_assoc] at cut
          rcases exists_mark_of_tokens cut rfl with ⟨before, _, rfl, front, cutMembers⟩
          rcases exists_members_of_tokens induction cutMembers with
            ⟨body, after, rfl, inside, rest⟩
          refine ⟨before, '\x7b' :: (body ++ ['\x7d']), after, ?_, front,
            .object inside, rest⟩
          simp only [List.append_assoc, List.cons_append, List.nil_append]

/-- Further blanks may follow a value. -/
theorem Value.Padded.append_blank
    {value : Value}
    {text blank : List Char}
    (padded : value.Padded text)
    (isBlank : Blank blank) :
    value.Padded (text ++ blank) := by
  cases padded with
  | blanks front spelled back =>
      rw [List.append_assoc, List.append_assoc]
      exact .blanks front spelled (List.forall_mem_append.mpr ⟨back, isBlank⟩)

/-- A text has the tokens of a value exactly if it spells the value, with blanks around it. -/
theorem tokens_eq_iff_padded {text : List Char} {value : Value} :
    tokens text = value.tokens ↔ value.Padded text := by
  constructor
  · intro cut
    have followed : tokens text = value.tokens ++ [] := by rw [cut, List.append_nil]
    rcases value.isSpelled followed with ⟨before, body, after, rfl, front, spelled, none⟩
    exact .blanks front spelled (blank_of_tokens_eq_nil none)
  · intro padded
    have cut := Value.IsCut.padded value.isCut padded detached_nil
    rwa [List.append_nil, tokens, List.append_nil] at cut

end Concordance.Json
