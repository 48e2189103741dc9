import Mathlib.Algebra.Group.Int.Defs
import Mathlib.Algebra.Group.Nat.Defs
import Concordance.Json.Printer
import Concordance.Json.Token

/-!
# Strings and whole numbers read back

What the printer writes for a string or a whole number is one token to the
reader, whatever text follows.  A string ends at its closing quote.  A number
has no end of its own: it must be `Detached` from what follows, which must
not go on with a digit, a point or an exponent.
-/

namespace Concordance.Json

/-! ### One token at a time -/

theorem tokens_of_readToken
    {first : Char}
    {text rest : List Char}
    {token : Token}
    (notBlank : isBlank first = false)
    (read : readToken first text = .ok (token, rest)) :
    tokens (first :: text) = token :: tokens rest := by
  rw [tokens, notBlank]
  simp only [Bool.false_eq_true, if_false]
  split
  · rename_i found
    rw [read] at found
    cases found
    rfl
  · rename_i found
    rw [read] at found
    cases found

theorem tokens_cons_of_isBlank
    {first : Char}
    (blank : isBlank first = true)
    (text : List Char) :
    tokens (first :: text) = tokens text := by
  rw [tokens, if_pos blank]

/-! ### Strings -/

theorem readString_closing (rest : List Char) :
    readString ('"' :: rest) = .ok ([], rest) := by
  rw [readString]

/-- A character that needs no escape stands for itself. -/
theorem readString_plain
    {char : Char}
    (notQuote : char ≠ '"')
    (notBackslash : char ≠ '\\')
    (printable : ¬ char.toNat < 0x20)
    (rest : List Char) :
    readString (char :: rest) = prepend char (readString rest) := by
  rw [readString, if_neg printable]
  all_goals simp_all

theorem readString_simpleEscape
    {letter char : Char}
    (escape : simpleEscape? letter = some char)
    (rest : List Char) :
    readString ('\\' :: letter :: rest) = prepend char (readString rest) := by
  have notUnicode : letter ≠ 'u' := by
    rintro rfl
    simp [simpleEscape?] at escape
  rw [readString, escape]
  all_goals simp_all

/-- The four digits of an escaped control character. -/
theorem hexFour?_hexPair (number : Nat) (control : number < 0x20) :
    hexFour? '0' '0' (Nat.digitChar (number / 16 % 16))
      (Nat.digitChar (number % 16)) = some number := by
  have every : ∀ small < 0x20,
      hexFour? '0' '0' (Nat.digitChar (small / 16 % 16))
        (Nat.digitChar (small % 16)) = some small := by
    decide
  exact every number control

theorem readString_control
    {char : Char}
    (control : char.toNat < 0x20)
    (rest : List Char) :
    readString ('\\' :: 'u' :: '0' :: '0' :: (hexPair char.toNat ++ rest)) =
      prepend char (readString rest) := by
  have notLow : isLowSurrogate char.toNat = false := by
    simp [isLowSurrogate]
    omega
  have notHigh : isHighSurrogate char.toNat = false := by
    simp [isHighSurrogate]
    omega
  rw [hexPair, List.cons_append, List.cons_append, List.nil_append,
    readString.eq_def]
  simp only [hexFour?_hexPair _ control, notLow, notHigh]
  rw [Char.ofNat_toNat]
  rfl

theorem readString_escapeChar (char : Char) (rest : List Char) :
    readString (escapeChar char ++ rest) = prepend char (readString rest) := by
  unfold escapeChar
  split
  case h_8 notQuote notBackslash _ _ _ _ _ =>
    split
    · rename_i control
      exact readString_control control rest
    · rename_i printable
      exact readString_plain notQuote notBackslash printable rest
  all_goals exact readString_simpleEscape rfl rest

theorem readString_escaped (text rest : List Char) :
    readString (text.flatMap escapeChar ++ '"' :: rest) = .ok (text, rest) := by
  induction text with
  | nil => exact readString_closing rest
  | cons char text induction =>
      rw [List.flatMap_cons, List.append_assoc, readString_escapeChar,
        induction]
      rfl

/-- A quoted text is one token. -/
theorem tokens_quote (text : String) (rest : List Char) :
    tokens (quote text ++ rest) = .string text :: tokens rest := by
  rw [quote, List.cons_append, List.append_assoc, List.singleton_append]
  apply tokens_of_readToken rfl
  simp only [readToken, readString_escaped, String.ofList_toList]

/-! ### Whole numbers -/

/-- Whether a text that follows a number is not taken for a part of it. -/
def Detached (rest : List Char) : Prop :=
  ∀ char tail, rest = char :: tail →
    char.isDigit = false ∧ char ≠ '.' ∧ char ≠ 'e' ∧ char ≠ 'E'

theorem detached_nil : Detached [] := by
  intro char tail impossible
  cases impossible

theorem detached_cons
    {char : Char}
    (notDigit : char.isDigit = false)
    (notPoint : char ≠ '.')
    (notSmall : char ≠ 'e')
    (notLarge : char ≠ 'E')
    (rest : List Char) :
    Detached (char :: rest) := by
  intro first tail same
  cases same
  exact ⟨notDigit, notPoint, notSmall, notLarge⟩

/-- Whether a text does not go on with a digit. -/
def Undigited (rest : List Char) : Prop :=
  ∀ char tail, rest = char :: tail → char.isDigit = false

theorem Detached.undigited {rest : List Char} (detached : Detached rest) :
    Undigited rest :=
  fun char tail same => (detached char tail same).1

theorem spanDigits_append
    {digits rest : List Char}
    (allDigits : ∀ char ∈ digits, char.isDigit = true)
    (undigited : Undigited rest) :
    spanDigits (digits ++ rest) = (digits, rest) := by
  rw [spanDigits, List.takeWhile_append_of_pos allDigits,
    List.dropWhile_append_of_pos allDigits]
  cases rest with
  | nil => simp
  | cons char tail =>
      have notDigit : ¬ char.isDigit = true :=
        Bool.eq_false_iff.mp (undigited char tail rfl)
      rw [List.takeWhile_cons_of_neg notDigit,
        List.dropWhile_cons_of_neg notDigit, List.append_nil]

/-- The decimal digits of a number. -/
abbrev decimal (number : Nat) : List Char :=
  Nat.toDigits 10 number

theorem isDigit_of_mem_decimal
    {number : Nat}
    {char : Char}
    (member : char ∈ decimal number) :
    char.isDigit = true :=
  Nat.isDigit_of_mem_toDigits (by decide) (by decide) member

theorem digitsValue_decimal (number : Nat) :
    digitsValue (decimal number) = number := by
  have same : digitsValue (decimal number) =
      Nat.ofDigitChars 10 (decimal number) 0 := by
    simp only [digitsValue, Nat.ofDigitChars, Nat.mul_comm]
  rw [same, Nat.ofDigitChars_ten_toDigits]

/-- Decimal digits begin with a zero only if there is no other digit. -/
theorem decimal_no_leading_zero
    (number : Nat)
    (second : Char)
    (rest : List Char) :
    decimal number ≠ '0' :: second :: rest := by
  induction number using Nat.strongRecOn generalizing second rest with
  | ind number induction =>
      intro leading
      by_cases small : number < 10
      · rw [decimal, Nat.toDigits_of_lt_base small] at leading
        simp at leading
      · rw [decimal, Nat.toDigits_of_base_le (by decide) (by omega)] at leading
        have smaller : number / 10 < number := by omega
        match higher : decimal (number / 10) with
        | [] => exact Nat.toDigits_ne_nil higher
        | [only] =>
            rw [decimal] at higher
            rw [higher] at leading
            cases leading
            have zero := digitsValue_decimal (number / 10)
            rw [decimal, higher] at zero
            change 0 = number / 10 at zero
            omega
        | first :: next :: tail =>
            rw [decimal] at higher
            rw [higher] at leading
            injection leading with sameFirst _
            rw [sameFirst] at higher
            exact induction _ smaller next tail higher

theorem readWhole_decimal
    (number : Nat)
    {rest : List Char}
    (detached : Detached rest) :
    readWhole (decimal number ++ rest) = .ok (decimal number, rest) := by
  rw [readWhole, spanDigits_append (fun _ => isDigit_of_mem_decimal) detached.undigited]
  split
  · rename_i found
    injection found with empty _
    exact (Nat.toDigits_ne_nil empty).elim
  · rename_i found
    injection found with leading _
    exact (decimal_no_leading_zero number _ _ leading).elim
  · rename_i found
    cases found
    rfl

theorem readFraction_detached
    {rest : List Char}
    (detached : Detached rest) :
    readFraction rest = .ok ([], rest) := by
  unfold readFraction
  split
  · exact ((detached _ _ rfl).2.1 rfl).elim
  · rfl

theorem readExponent_detached
    {rest : List Char}
    (detached : Detached rest) :
    readExponent rest = .ok (none, rest) := by
  unfold readExponent
  split
  case h_7 => rfl
  all_goals first
    | exact ((detached _ _ rfl).2.2.1 rfl).elim
    | exact ((detached _ _ rfl).2.2.2 rfl).elim

theorem readNumeral_decimal
    (negative : Bool)
    (number : Nat)
    {rest : List Char}
    (detached : Detached rest) :
    readNumeral negative (decimal number ++ rest) =
      .ok (⟨negative, decimal number, [], none⟩, rest) := by
  rw [readNumeral, readWhole_decimal number detached]
  change (readFraction rest >>= _) = _
  rw [readFraction_detached detached]
  change (readExponent rest >>= _) = _
  rw [readExponent_detached detached]
  rfl

/-- Whether a number is a whole one that is kept exactly. -/
def Number.Whole : Number → Prop
  | .integer value => -2 ^ 63 ≤ value ∧ value ≤ 2 ^ 64 - 1
  | .float _ => False

theorem readNumber_decimal
    {number : Nat}
    (bounded : number ≤ 2 ^ 64 - 1)
    {rest : List Char}
    (detached : Detached rest) :
    readNumber false (decimal number ++ rest) =
      .ok (.integer number, rest) := by
  have fits : number ≤ greatestWhole := bounded
  rw [readNumber, readNumeral_decimal false number detached]
  simp [bind, Except.bind, pure, Except.pure, Numeral.value?,
    digitsValue_decimal, fits]

theorem readNumber_decimal_negative
    {number : Nat}
    (positive : 0 < number)
    (bounded : number ≤ 2 ^ 63)
    {rest : List Char}
    (detached : Detached rest) :
    readNumber true (decimal number ++ rest) =
      .ok (.integer (-(number : Int)), rest) := by
  have fits : number ≤ leastWholeSize := bounded
  rw [readNumber, readNumeral_decimal true number detached]
  simp [bind, Except.bind, pure, Except.pure, Numeral.value?,
    digitsValue_decimal, positive, fits]

theorem readSigned_of_isDigit
    {first : Char}
    (digit : first.isDigit = true)
    (rest : List Char) :
    readSigned (first :: rest) = numberToken (readNumber false (first :: rest)) := by
  unfold readSigned
  split
  · rename_i same
    injection same with isMinus _
    subst isMinus
    cases digit
  · rfl

theorem readToken_of_isDigit
    {first : Char}
    (digit : first.isDigit = true)
    (rest : List Char) :
    readToken first rest = outsideString (readSigned (first :: rest)) := by
  unfold readToken
  split
  case h_11 => simp [digit]
  all_goals cases digit

theorem not_isBlank_of_isDigit
    {char : Char}
    (digit : char.isDigit = true) :
    isBlank char = false := by
  cases blank : isBlank char with
  | false => rfl
  | true =>
      simp only [isBlank, Bool.or_eq_true, beq_iff_eq] at blank
      rcases blank with ((rfl | rfl) | rfl) | rfl <;> cases digit

/-- A whole number is one token. -/
theorem tokens_integerText
    {value : Int}
    (whole : (Number.integer value).Whole)
    {rest : List Char}
    (detached : Detached rest) :
    tokens (integerText value ++ rest) =
      .number (.integer value) :: tokens rest := by
  rcases whole with ⟨least, greatest⟩
  cases value with
  | ofNat number =>
      have bounded : number ≤ 2 ^ 64 - 1 := by
        have : (number : Int) ≤ 2 ^ 64 - 1 := greatest
        omega
      have read := readNumber_decimal bounded detached
      change tokens (decimal number ++ rest) = _
      match digits : decimal number with
      | [] => exact (Nat.toDigits_ne_nil digits).elim
      | first :: tail =>
          have digit : first.isDigit = true := by
            have member : first ∈ decimal number := by
              rw [digits]
              exact List.mem_cons_self
            exact isDigit_of_mem_decimal member
          rw [digits, List.cons_append] at read
          rw [List.cons_append]
          apply tokens_of_readToken (not_isBlank_of_isDigit digit)
          rw [readToken_of_isDigit digit, readSigned_of_isDigit digit, read]
          rfl
  | negSucc number =>
      have bounded : number + 1 ≤ 2 ^ 63 := by
        have : -2 ^ 63 ≤ Int.negSucc number := least
        omega
      have read := readNumber_decimal_negative (Nat.succ_pos number) bounded
        detached
      change tokens ('-' :: (decimal (number + 1) ++ rest)) = _
      apply tokens_of_readToken rfl
      change outsideString (numberToken
        (readNumber true (decimal (number + 1) ++ rest))) = _
      rw [read]
      rfl

end Concordance.Json
