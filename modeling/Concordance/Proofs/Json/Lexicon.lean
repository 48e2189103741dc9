import Concordance.Proofs.Json.Numerals

/-!
# How tokens are spelled

A token is spelled by certain texts: punctuation and words by one text each,
numbers and strings by many.  The relations here say which, in the terms of
RFC 8259, and the reader of tokens is shown to recognise just these spellings:
what it takes off a text spells the token it returns (`spelled_of_readToken`),
and a spelling is read as its token whatever follows it
(`tokens_append_of_spelled`), numbers being `Detached` from what follows.

A character escaped by its number is the character of that number.  No
character has the number of half a surrogate pair, so a lone half spells
nothing.
-/

namespace Concordance.Json

/-! ### The spellings -/

/-- Whether a text may stand between tokens. -/
def Blank (text : List Char) : Prop :=
  ∀ char ∈ text, isBlank char = true

/-- The spellings of a character in a string. -/
inductive CharSpelled : Char → List Char → Prop where
  | plain {char : Char}
      (notQuote : char ≠ '"')
      (notBackslash : char ≠ '\\')
      (printable : 0x20 ≤ char.toNat) :
      CharSpelled char [char]
  | escape {letter char : Char}
      (short : simpleEscape? letter = some char) :
      CharSpelled char ['\\', letter]
  | unit {char first second third fourth : Char}
      (code : hexFour? first second third fourth = some char.toNat) :
      CharSpelled char ['\\', 'u', first, second, third, fourth]
  | pair {first second third fourth fifth sixth seventh eighth : Char} {high low : Nat}
      (front : hexFour? first second third fourth = some high)
      (back : hexFour? fifth sixth seventh eighth = some low)
      (isHigh : isHighSurrogate high = true)
      (isLow : isLowSurrogate low = true) :
      CharSpelled (surrogatePair high low)
        ['\\', 'u', first, second, third, fourth,
          '\\', 'u', fifth, sixth, seventh, eighth]

/-- The spellings of a string between its quotes. -/
inductive StringSpelled : List Char → List Char → Prop where
  | nil : StringSpelled [] []
  | cons {char : Char} {chars text texts : List Char}
      (first : CharSpelled char text)
      (rest : StringSpelled chars texts) :
      StringSpelled (char :: chars) (text ++ texts)

/-- The spellings of a token. -/
inductive Token.Spelled : Token → List Char → Prop where
  | openArray : Spelled .openArray ['[']
  | closeArray : Spelled .closeArray [']']
  | openObject : Spelled .openObject ['\x7b']
  | closeObject : Spelled .closeObject ['\x7d']
  | comma : Spelled .comma [',']
  | colon : Spelled .colon [':']
  | null : Spelled .null "null".toList
  | true : Spelled (.bool true) "true".toList
  | false : Spelled (.bool false) "false".toList
  | number {number : Number} {text : List Char}
      (spelled : NumberSpelled number text) :
      Spelled (.number number) text
  | string {chars text : List Char}
      (spelled : StringSpelled chars text) :
      Spelled (.string (String.ofList chars)) ('"' :: (text ++ ['"']))

/-! ### Strings -/

theorem hexValue?_lt {char : Char} {value : Nat} (read : hexValue? char = some value) :
    value < 16 := by
  unfold hexValue? at read
  simp only [Char.le_def, UInt32.le_iff_toNat_le] at read
  have same : char.toNat = char.val.toNat := rfl
  have nine : ('9' : Char).val.toNat = 57 := rfl
  have smallF : ('f' : Char).val.toNat = 102 := rfl
  have largeF : ('F' : Char).val.toNat = 70 := rfl
  have zero : ('0' : Char).toNat = 48 := rfl
  have smallA : ('a' : Char).toNat = 97 := rfl
  have largeA : ('A' : Char).toNat = 65 := rfl
  split at read
  · cases read
    omega
  split at read
  · cases read
    omega
  split at read
  · cases read
    omega
  · cases read

theorem hexFour?_lt
    {first second third fourth : Char}
    {unit : Nat}
    (read : hexFour? first second third fourth = some unit) :
    unit < 0x10000 := by
  simp only [hexFour?, Option.bind_eq_bind, Option.bind_eq_some_iff] at read
  rcases read with ⟨one, readOne, two, readTwo, three, readThree, four, readFour, ⟨⟩⟩
  have := hexValue?_lt readOne
  have := hexValue?_lt readTwo
  have := hexValue?_lt readThree
  have := hexValue?_lt readFour
  omega

theorem isLowSurrogate_toNat (char : Char) : isLowSurrogate char.toNat = false := by
  have valid := char.valid
  simp only [UInt32.isValidChar, Nat.isValidChar] at valid
  have same : char.toNat = char.val.toNat := rfl
  simp only [isLowSurrogate, Bool.and_eq_false_iff, decide_eq_false_iff_not]
  omega

theorem isHighSurrogate_toNat (char : Char) : isHighSurrogate char.toNat = false := by
  have valid := char.valid
  simp only [UInt32.isValidChar, Nat.isValidChar] at valid
  have same : char.toNat = char.val.toNat := rfl
  simp only [isHighSurrogate, Bool.and_eq_false_iff, decide_eq_false_iff_not]
  omega

/-- A code unit that is no half of a pair is the number of a character. -/
theorem toNat_ofNat_of_not_surrogate
    {unit : Nat}
    (small : unit < 0x10000)
    (notLow : ¬ isLowSurrogate unit = true)
    (notHigh : ¬ isHighSurrogate unit = true) :
    (Char.ofNat unit).toNat = unit := by
  have valid : unit.isValidChar := by
    simp [isLowSurrogate, isHighSurrogate] at notLow notHigh
    simp only [Nat.isValidChar]
    omega
  rw [Char.ofNat, dif_pos valid]
  rfl

theorem readString_of_charSpelled
    {char : Char}
    {text : List Char}
    (spelled : CharSpelled char text)
    (rest : List Char) :
    readString (text ++ rest) = prepend char (readString rest) := by
  cases spelled with
  | plain notQuote notBackslash printable =>
      exact readString_plain notQuote notBackslash (Nat.not_lt.mpr printable) rest
  | escape short => exact readString_simpleEscape short rest
  | unit code =>
      rw [List.cons_append, List.cons_append, readString.eq_def]
      simp only [List.cons_append, List.nil_append, code, isLowSurrogate_toNat,
        isHighSurrogate_toNat, Bool.false_eq_true, if_false, Char.ofNat_toNat]
  | @pair _ _ _ _ _ _ _ _ high _ front back isHigh isLow =>
      have notLow : ¬ isLowSurrogate high = true := by
        simp [isLowSurrogate, isHighSurrogate] at isHigh ⊢
        omega
      rw [List.cons_append, List.cons_append, readString.eq_def]
      simp only [List.cons_append, List.nil_append, front, back, isHigh, isLow,
        if_neg notLow, if_true]

theorem readString_of_spelled
    {chars text : List Char}
    (spelled : StringSpelled chars text)
    (rest : List Char) :
    readString (text ++ '"' :: rest) = .ok (chars, rest) := by
  induction spelled with
  | nil => exact readString_closing rest
  | cons first _ induction =>
      rw [List.append_assoc, readString_of_charSpelled first, induction]
      rfl

/-- A character that is read in front of a spelled string is a part of the spelling. -/
theorem exists_stringSpelled_cons
    {char : Char}
    {chars text after rest : List Char}
    (first : CharSpelled char text)
    (others : ∀ {tail}, readString after = .ok (tail, rest) →
      ∃ body, after = body ++ '"' :: rest ∧ StringSpelled tail body)
    (read : ∃ tail, chars = char :: tail ∧ readString after = .ok (tail, rest)) :
    ∃ body, text ++ after = body ++ '"' :: rest ∧ StringSpelled chars body := by
  rcases read with ⟨tail, rfl, readTail⟩
  rcases others readTail with ⟨body, rfl, spelled⟩
  exact ⟨text ++ body, (List.append_assoc _ _ _).symm, .cons first spelled⟩

/-- What is read as a string is its spelling and the closing quote. -/
theorem spelled_of_readString
    {text chars rest : List Char}
    (read : readString text = .ok (chars, rest)) :
    ∃ body, text = body ++ '"' :: rest ∧ StringSpelled chars body := by
  fun_induction readString text generalizing chars
  all_goals
    simp only [prepend_eq_ok_iff, reduceCtorEq, Except.ok.injEq,
      Prod.mk.injEq] at read
  case case2 =>
    rcases read with ⟨rfl, rfl⟩
    exact ⟨[], rfl, .nil⟩
  case case9 front notLow isHigh _ _ _ _ _ _ back isLow induction =>
    exact exists_stringSpelled_cons (.pair front back isHigh isLow) induction read
  case case13 unit code notLow notHigh induction =>
    rw [← toNat_ofNat_of_not_surrogate (hexFour?_lt code) notLow notHigh] at code
    exact exists_stringSpelled_cons (.unit code) induction read
  case case15 short induction =>
    exact exists_stringSpelled_cons (.escape short) induction read
  case case18 char after notQuote notLast _ _ notEscape printable induction =>
    have notBackslash : char ≠ '\\' := by
      intro backslash
      cases after with
      | nil => exact notLast backslash rfl
      | cons letter after => exact notEscape letter after backslash rfl
    exact exists_stringSpelled_cons (.plain notQuote notBackslash (Nat.not_lt.mp printable))
      induction read

/-! ### Tokens -/

theorem eq_of_readWord
    {token result : Token}
    {word text rest : List Char}
    (read : readWord token word text = .ok (result, rest)) :
    result = token ∧ text = word ++ rest := by
  induction word generalizing text with
  | nil =>
      cases read
      exact ⟨rfl, rfl⟩
  | cons letter word induction =>
      cases text with
      | nil => cases read
      | cons char text =>
          rw [readWord] at read
          split at read
          · rename_i same
            rcases induction read with ⟨rfl, rfl⟩
            exact ⟨rfl, congrArg (· :: (word ++ rest)) same.symm⟩
          · cases read

/-- What is read as a token is a spelling of it. -/
theorem spelled_of_readToken
    {first : Char}
    {rest after : List Char}
    {token : Token}
    (read : readToken first rest = .ok (token, after)) :
    ∃ body, first :: rest = body ++ after ∧ token.Spelled body := by
  unfold readToken at read
  split at read
  case h_1 | h_2 | h_3 | h_4 | h_5 | h_6 =>
    cases read
    exact ⟨_, rfl, by constructor⟩
  case h_7 | h_8 | h_9 =>
    rcases eq_of_readWord (outsideString_eq_ok_iff.mp read) with ⟨rfl, rfl⟩
    exact ⟨_, rfl, by constructor⟩
  case h_10 =>
    split at read
    · rename_i readBody
      cases read
      rcases spelled_of_readString readBody with ⟨body, rfl, spelled⟩
      exact ⟨'"' :: (body ++ ['"']), by simp, .string spelled⟩
    · cases read
  case h_11 =>
    split at read
    · rcases spelled_of_readSigned (outsideString_eq_ok_iff.mp read) with
        ⟨number, body, rfl, same, spelled⟩
      exact ⟨body, same, .number spelled⟩
    · cases read

/-- Where no token is read, the fault is the token. -/
theorem broken_of_readToken
    {first : Char}
    {rest : List Char}
    {token : Token}
    (failed : readToken first rest = .error token) :
    ∃ inString fault, token = .broken inString fault := by
  have outside {read : Except Fault (Token × List Char)}
      (failed : outsideString read = .error token) :
      ∃ inString fault, token = .broken inString fault := by
    cases read with
    | error fault =>
        cases failed
        exact ⟨false, fault, rfl⟩
    | ok found => cases failed
  unfold readToken at failed
  split at failed
  case h_7 | h_8 | h_9 => exact outside failed
  case h_10 =>
    split at failed
    · cases failed
    · cases failed
      exact ⟨true, _, rfl⟩
  case h_11 =>
    split at failed
    · exact outside failed
    · cases failed
      exact ⟨false, .malformed, rfl⟩
  all_goals cases failed

theorem readToken_number
    {first : Char}
    (begins : first = '-' ∨ first.isDigit = true)
    (rest : List Char) :
    isBlank first = false ∧
      readToken first rest = outsideString (readSigned (first :: rest)) := by
  rcases begins with rfl | digit
  · exact ⟨rfl, rfl⟩
  · exact ⟨not_isBlank_of_isDigit digit, readToken_of_isDigit digit rest⟩

/-- A spelling is read as its token; that of a number must be detached from what follows. -/
theorem tokens_append_of_spelled
    {token : Token}
    {body rest : List Char}
    (spelled : token.Spelled body)
    (detached : ∀ number, token = .number number → Detached rest) :
    tokens (body ++ rest) = token :: tokens rest := by
  cases spelled with
  | openArray | closeArray | openObject | closeObject | comma | colon | null | true | false =>
      exact tokens_of_readToken rfl rfl
  | @number number _ spelled =>
      have read := readSigned_of_spelled spelled (detached number rfl)
      rcases spelled.begins with ⟨first, tail, rfl, begins⟩
      rcases readToken_number begins (tail ++ rest) with ⟨notBlank, readFirst⟩
      rw [List.cons_append] at read ⊢
      apply tokens_of_readToken notBlank
      rw [readFirst, read]
      rfl
  | @string chars text spelled =>
      rw [List.cons_append, List.append_assoc, List.singleton_append]
      apply tokens_of_readToken rfl
      simp only [readToken, readString_of_spelled spelled]

/-! ### Texts of tokens and blanks -/

theorem tokens_append_of_blank
    {blank : List Char}
    (isBlank : Blank blank)
    (rest : List Char) :
    tokens (blank ++ rest) = tokens rest := by
  induction blank with
  | nil => rfl
  | cons char blank induction =>
      rcases List.forall_mem_cons.mp isBlank with ⟨first, others⟩
      rw [List.cons_append, tokens_cons_of_isBlank first, induction others]

theorem blank_of_tokens_eq_nil {text : List Char} (none : tokens text = []) :
    Blank text := by
  fun_induction tokens text with
  | case1 => exact List.forall_mem_nil _
  | case2 first rest blank induction =>
      exact List.forall_mem_cons.mpr ⟨blank, induction none⟩
  | case3 | case4 => cases none

/-- The first token of a text stands behind blanks, and the others behind it. -/
theorem exists_spelled_of_tokens
    {text : List Char}
    {token : Token}
    {others : List Token}
    (cut : tokens text = token :: others)
    (whole : ∀ inString fault, token ≠ .broken inString fault) :
    ∃ before body after, text = before ++ (body ++ after) ∧ Blank before ∧
      token.Spelled body ∧ tokens after = others := by
  fun_induction tokens text with
  | case1 => cases cut
  | case2 first rest blank induction =>
      rcases induction cut with ⟨before, body, after, rfl, isBlank, found⟩
      exact ⟨first :: before, body, after, rfl,
        List.forall_mem_cons.mpr ⟨blank, isBlank⟩, found⟩
  | case3 first rest notBlank head after read induction =>
      cases cut
      rcases spelled_of_readToken read with ⟨body, same, spelled⟩
      exact ⟨[], body, after, same, List.forall_mem_nil _, spelled, rfl⟩
  | case4 first rest notBlank broken read =>
      cases cut
      rcases broken_of_readToken read with ⟨inString, fault, same⟩
      exact (whole inString fault same).elim

end Concordance.Json
