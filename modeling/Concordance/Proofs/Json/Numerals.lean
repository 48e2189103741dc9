import Concordance.Proofs.Failure
import Concordance.Proofs.Json.Lexemes

/-!
# How numbers are spelled

The number grammar of RFC 8259 as relations between the parts of a number and
their texts.  The reader of numbers takes the longest part that each place
admits, so a spelling is read back as what it spells if it is `Detached` from
the text behind it; and what is read is always a spelling.

A numeral without fraction and exponent is whole if it is in range; every
other numeral is a floating-point number, or out of range (`Numeral.InRange`).
-/

namespace Concordance.Json

/-! ### The spellings -/

/-- Whether a text consists of digits, at least one. -/
structure Digits (text : List Char) : Prop where
  nonempty : text ≠ []
  each : ∀ char ∈ text, char.isDigit = true

/-- Whether a text is that of a whole number without sign: no zero leads other digits. -/
structure WholeSpelled (text : List Char) : Prop extends Digits text where
  unpadded : ∀ second rest, text ≠ '0' :: second :: rest

/-- The spellings of the digits behind the point. -/
inductive FractionSpelled : List Char → List Char → Prop where
  | none : FractionSpelled [] []
  | point {digits : List Char}
      (digitsBehind : Digits digits) :
      FractionSpelled digits ('.' :: digits)

/-- The spellings of an exponent, which may have a sign. -/
inductive ExponentSpelled : Option Int → List Char → Prop where
  | none : ExponentSpelled none []
  | plain {mark : Char} {digits : List Char}
      (isMark : mark = 'e' ∨ mark = 'E')
      (size : Digits digits) :
      ExponentSpelled (some (digitsValue digits)) (mark :: digits)
  | plus {mark : Char} {digits : List Char}
      (isMark : mark = 'e' ∨ mark = 'E')
      (size : Digits digits) :
      ExponentSpelled (some (digitsValue digits)) (mark :: '+' :: digits)
  | minus {mark : Char} {digits : List Char}
      (isMark : mark = 'e' ∨ mark = 'E')
      (size : Digits digits) :
      ExponentSpelled (some (-(digitsValue digits : Int))) (mark :: '-' :: digits)

/-- The spellings of the parts of a number behind its sign. -/
inductive NumeralSpelled (negative : Bool) : Numeral → List Char → Prop where
  | parts {whole fraction fractionText exponentText : List Char} {exponent : Option Int}
      (wholeSpelled : WholeSpelled whole)
      (fractionSpelled : FractionSpelled fraction fractionText)
      (exponentSpelled : ExponentSpelled exponent exponentText) :
      NumeralSpelled negative ⟨negative, whole, fraction, exponent⟩
        (whole ++ (fractionText ++ exponentText))

/--
The spellings of a number.  Digits alone spell a whole number if it is in
range, and so do digits behind a minus sign, unless they are zero.  Every
other numeral spells a floating-point number, unless it is too large for one.
-/
inductive NumberSpelled : Number → List Char → Prop where
  | natural {digits : List Char}
      (whole : WholeSpelled digits)
      (inRange : digitsValue digits ≤ greatestWhole) :
      NumberSpelled (.integer (digitsValue digits)) digits
  | negative {digits : List Char}
      (whole : WholeSpelled digits)
      (nonzero : 0 < digitsValue digits)
      (inRange : digitsValue digits ≤ leastWholeSize) :
      NumberSpelled (.integer (-(digitsValue digits : Int))) ('-' :: digits)
  | float {numeral : Numeral} {text : List Char} {value : Binary64}
      (numeralSpelled : NumeralSpelled numeral.negative numeral text)
      (inRange : numeral.value? = some (.float value)) :
      NumberSpelled (.float value) (if numeral.negative then '-' :: text else text)

/-! ### Reading the parts of a number -/

/-- The digits in front of a text, if there are any, are its spelling of a number. -/
theorem digits_of_spanDigits
    {text digits rest : List Char}
    (cut : spanDigits text = (digits, rest))
    (nonempty : digits ≠ []) :
    text = digits ++ rest ∧ Digits digits := by
  cases cut
  refine ⟨List.takeWhile_append_dropWhile.symm, nonempty, ?_⟩
  intro char member
  exact List.all_eq_true.mp List.all_takeWhile char member

theorem readWhole_of_spelled
    {digits rest : List Char}
    (spelled : WholeSpelled digits)
    (undigited : Undigited rest) :
    readWhole (digits ++ rest) = .ok (digits, rest) := by
  rw [readWhole, spanDigits_append spelled.each undigited]
  split
  · rename_i found
    injection found with empty _
    exact (spelled.nonempty empty).elim
  · rename_i found
    injection found with leading _
    exact (spelled.unpadded _ _ leading).elim
  · rename_i found
    cases found
    rfl

theorem spelled_of_readWhole
    {text digits rest : List Char}
    (read : readWhole text = .ok (digits, rest)) :
    text = digits ++ rest ∧ WholeSpelled digits := by
  unfold readWhole at read
  split at read
  · cases read
  · cases read
  · rename_i notEmpty unpadded cut
    cases read
    rcases digits_of_spanDigits cut (fun empty => notEmpty empty) with ⟨same, all⟩
    exact ⟨same, all, fun second others padded => unpadded second others padded⟩

theorem readFraction_of_spelled
    {digits text rest : List Char}
    (spelled : FractionSpelled digits text)
    (undigited : Undigited rest)
    (noPoint : ∀ tail, rest ≠ '.' :: tail) :
    readFraction (text ++ rest) = .ok (digits, rest) := by
  cases spelled with
  | none =>
      rw [List.nil_append]
      unfold readFraction
      split
      · exact (noPoint _ rfl).elim
      · rfl
  | point digitsBehind =>
      rw [List.cons_append, readFraction,
        spanDigits_append digitsBehind.each undigited]
      split
      · rename_i found
        injection found with empty _
        exact (digitsBehind.nonempty empty).elim
      · rename_i found
        cases found
        rfl

theorem spelled_of_readFraction
    {text digits rest : List Char}
    (read : readFraction text = .ok (digits, rest)) :
    ∃ body, text = body ++ rest ∧ FractionSpelled digits body := by
  unfold readFraction at read
  split at read
  · split at read
    · cases read
    · rename_i notEmpty cut
      cases read
      rcases digits_of_spanDigits cut (fun empty => notEmpty empty) with ⟨rfl, all⟩
      exact ⟨'.' :: digits, rfl, .point all⟩
  · cases read
    exact ⟨[], rfl, .none⟩

theorem readExponentDigits_of_digits
    (negative : Bool)
    {digits rest : List Char}
    (size : Digits digits)
    (undigited : Undigited rest) :
    readExponentDigits negative (digits ++ rest) =
      .ok (some (if negative then -(digitsValue digits : Int) else digitsValue digits),
        rest) := by
  rw [readExponentDigits, spanDigits_append size.each undigited]
  split
  · rename_i found
    injection found with empty _
    exact (size.nonempty empty).elim
  · rename_i found
    cases found
    rfl

theorem digits_of_readExponentDigits
    {negative : Bool}
    {text rest : List Char}
    {exponent : Option Int}
    (read : readExponentDigits negative text = .ok (exponent, rest)) :
    ∃ digits, text = digits ++ rest ∧ Digits digits ∧
      exponent =
        some (if negative then -(digitsValue digits : Int) else digitsValue digits) := by
  unfold readExponentDigits at read
  split at read
  · cases read
  · rename_i digits _ notEmpty cut
    cases read
    rcases digits_of_spanDigits cut (fun empty => notEmpty empty) with ⟨rfl, all⟩
    exact ⟨digits, rfl, all, rfl⟩

theorem readExponent_of_spelled
    {exponent : Option Int}
    {text rest : List Char}
    (spelled : ExponentSpelled exponent text)
    (detached : Detached rest) :
    readExponent (text ++ rest) = .ok (exponent, rest) := by
  have undigited := detached.undigited
  cases spelled with
  | none => exact readExponent_detached detached
  | @plain mark digits isMark size =>
      have first : ∀ char tail, digits ++ rest = char :: tail → char.isDigit = true := by
        intro char tail begins
        cases digits with
        | nil => exact (size.nonempty rfl).elim
        | cons digit digits =>
            cases begins
            exact size.each _ List.mem_cons_self
      have notPlus : ∀ tail, digits ++ rest = '+' :: tail → False :=
        fun tail begins => Bool.false_ne_true (first _ _ begins)
      have notMinus : ∀ tail, digits ++ rest = '-' :: tail → False :=
        fun tail begins => Bool.false_ne_true (first _ _ begins)
      rcases isMark with rfl | rfl
      all_goals
        rw [List.cons_append, readExponent]
        · exact readExponentDigits_of_digits false size undigited
        all_goals assumption
  | plus isMark size =>
      rcases isMark with rfl | rfl
      all_goals exact readExponentDigits_of_digits false size undigited
  | minus isMark size =>
      rcases isMark with rfl | rfl
      all_goals exact readExponentDigits_of_digits true size undigited

theorem spelled_of_readExponent
    {text rest : List Char}
    {exponent : Option Int}
    (read : readExponent text = .ok (exponent, rest)) :
    ∃ body, text = body ++ rest ∧ ExponentSpelled exponent body := by
  unfold readExponent at read
  split at read
  case h_7 =>
    cases read
    exact ⟨[], rfl, .none⟩
  all_goals rcases digits_of_readExponentDigits read with ⟨digits, rfl, size, rfl⟩
  case h_1 => exact ⟨_, rfl, .plus (.inl rfl) size⟩
  case h_2 => exact ⟨_, rfl, .plus (.inr rfl) size⟩
  case h_3 => exact ⟨_, rfl, .minus (.inl rfl) size⟩
  case h_4 => exact ⟨_, rfl, .minus (.inr rfl) size⟩
  case h_5 => exact ⟨_, rfl, .plain (.inl rfl) size⟩
  case h_6 => exact ⟨_, rfl, .plain (.inr rfl) size⟩

/-- A number's exponent and what follows it is no part of the digits in front. -/
theorem ExponentSpelled.undigited_append
    {exponent : Option Int}
    {text rest : List Char}
    (spelled : ExponentSpelled exponent text)
    (detached : Detached rest) :
    Undigited (text ++ rest) ∧ ∀ tail, text ++ rest ≠ '.' :: tail := by
  have marked (mark : Char) (isMark : mark = 'e' ∨ mark = 'E') (others : List Char) :
      Undigited (mark :: others) ∧ ∀ tail, mark :: others ≠ '.' :: tail := by
    constructor
    · rintro _ _ ⟨⟩
      rcases isMark with rfl | rfl <;> rfl
    · rintro _ ⟨⟩
      rcases isMark with ⟨⟨⟩⟩ | ⟨⟨⟩⟩
  cases spelled with
  | none => exact ⟨detached.undigited, fun tail begins => (detached _ _ begins).2.1 rfl⟩
  | plain isMark _ | plus isMark _ | minus isMark _ => exact marked _ isMark _

theorem FractionSpelled.undigited_append
    {digits text rest : List Char}
    (spelled : FractionSpelled digits text)
    (undigited : Undigited rest) :
    Undigited (text ++ rest) := by
  cases spelled with
  | none => exact undigited
  | point =>
      rintro _ _ ⟨⟩
      rfl

theorem readNumeral_of_spelled
    {negative : Bool}
    {numeral : Numeral}
    {text rest : List Char}
    (spelled : NumeralSpelled negative numeral text)
    (detached : Detached rest) :
    readNumeral negative (text ++ rest) = .ok (numeral, rest) := by
  cases spelled with
  | parts wholeSpelled fractionSpelled exponentSpelled =>
      rcases exponentSpelled.undigited_append detached with ⟨undigited, noPoint⟩
      rw [List.append_assoc, List.append_assoc, readNumeral,
        readWhole_of_spelled wholeSpelled (fractionSpelled.undigited_append undigited)]
      change (readFraction _ >>= _) = _
      rw [readFraction_of_spelled fractionSpelled undigited noPoint]
      change (readExponent _ >>= _) = _
      rw [readExponent_of_spelled exponentSpelled detached]
      rfl

theorem spelled_of_readNumeral
    {negative : Bool}
    {numeral : Numeral}
    {text rest : List Char}
    (read : readNumeral negative text = .ok (numeral, rest)) :
    ∃ body, text = body ++ rest ∧ NumeralSpelled negative numeral body := by
  simp only [readNumeral, bind_eq_ok_iff] at read
  rcases read with ⟨⟨whole, afterWhole⟩, readWhole, ⟨fraction, afterFraction⟩,
    readFraction, ⟨exponent, afterExponent⟩, readExponent, ⟨⟩⟩
  rcases spelled_of_readWhole readWhole with ⟨rfl, wholeSpelled⟩
  rcases spelled_of_readFraction readFraction with ⟨fractionText, rfl, fractionSpelled⟩
  rcases spelled_of_readExponent readExponent with ⟨exponentText, rfl, exponentSpelled⟩
  refine ⟨whole ++ (fractionText ++ exponentText), ?_,
    .parts wholeSpelled fractionSpelled exponentSpelled⟩
  rw [List.append_assoc, List.append_assoc]

theorem NumeralSpelled.negative_eq
    {negative : Bool}
    {numeral : Numeral}
    {text : List Char}
    (spelled : NumeralSpelled negative numeral text) :
    numeral.negative = negative := by
  cases spelled
  rfl

theorem NumeralSpelled.begins_with_digit
    {negative : Bool}
    {numeral : Numeral}
    {text : List Char}
    (spelled : NumeralSpelled negative numeral text) :
    ∃ first rest, text = first :: rest ∧ first.isDigit = true := by
  cases spelled with
  | @parts whole _ _ _ _ wholeSpelled _ _ =>
      cases whole with
      | nil => exact (wholeSpelled.nonempty rfl).elim
      | cons first whole =>
          exact ⟨first, _, rfl, wholeSpelled.each first List.mem_cons_self⟩

/-- The numeral of digits alone. -/
theorem numeralSpelled_whole
    (negative : Bool)
    {digits : List Char}
    (whole : WholeSpelled digits) :
    NumeralSpelled negative ⟨negative, digits, [], none⟩ digits := by
  have spelled : NumeralSpelled negative ⟨negative, digits, [], none⟩
      (digits ++ ([] ++ [])) :=
    .parts whole .none .none
  rwa [List.append_nil, List.append_nil] at spelled

/-- A numeral without fraction and exponent consists of its digits. -/
theorem NumeralSpelled.eq_whole
    {negative : Bool}
    {numeral : Numeral}
    {text : List Char}
    (spelled : NumeralSpelled negative numeral text)
    (noFraction : numeral.fraction.isEmpty = true)
    (noExponent : numeral.exponent.isNone = true) :
    text = numeral.whole ∧ WholeSpelled numeral.whole := by
  cases spelled with
  | parts whole fraction exponent =>
      rw [List.isEmpty_iff] at noFraction
      rw [Option.isNone_iff_eq_none] at noExponent
      subst noFraction noExponent
      cases exponent
      cases fraction with
      | none => exact ⟨by simp, whole⟩
      | point digits => exact (digits.nonempty rfl).elim

/-- A number is spelled by the numerals that have it as their value. -/
theorem numberSpelled_iff {number : Number} {text : List Char} :
    NumberSpelled number text ↔
      ∃ numeral body, NumeralSpelled numeral.negative numeral body ∧
        numeral.value? = some number ∧
        text = if numeral.negative then '-' :: body else body := by
  constructor
  · intro spelled
    cases spelled with
    | natural whole inRange =>
        refine ⟨⟨false, _, [], none⟩, _, numeralSpelled_whole false whole, ?_, rfl⟩
        simp [Numeral.value?, inRange]
    | negative whole nonzero inRange =>
        refine ⟨⟨true, _, [], none⟩, _, numeralSpelled_whole true whole, ?_, rfl⟩
        simp [Numeral.value?, nonzero, inRange]
    | float numeralSpelled inRange => exact ⟨_, _, numeralSpelled, inRange, rfl⟩
  · rintro ⟨numeral, body, spelled, value, rfl⟩
    unfold Numeral.value? at value
    simp only at value
    split at value
    · rename_i written
      simp only [Bool.and_eq_true, Bool.not_eq_true', decide_eq_true_eq] at written
      rcases written with ⟨⟨⟨noFraction, noExponent⟩, positive⟩, inRange⟩
      rcases spelled.eq_whole noFraction noExponent with ⟨rfl, whole⟩
      cases value
      rw [positive]
      exact .natural whole inRange
    split at value
    · rename_i written
      simp only [Bool.and_eq_true, decide_eq_true_eq] at written
      rcases written with ⟨⟨⟨⟨noFraction, noExponent⟩, negative⟩, nonzero⟩, inRange⟩
      rcases spelled.eq_whole noFraction noExponent with ⟨rfl, whole⟩
      cases value
      rw [negative]
      exact .negative whole nonzero inRange
    · rename_i notNatural notNegative
      cases float : numeral.float? with
      | none =>
          rw [float] at value
          cases value
      | some approximation =>
          rw [float] at value
          cases value
          refine .float spelled ?_
          simp [Numeral.value?, notNatural, notNegative, float]

theorem readNumber_eq_ok_iff
    {negative : Bool}
    {text rest : List Char}
    {number : Number} :
    readNumber negative text = .ok (number, rest) ↔
      ∃ numeral, readNumeral negative text = .ok (numeral, rest) ∧
        numeral.value? = some number := by
  rw [readNumber, bind_eq_ok_iff]
  constructor
  · rintro ⟨⟨numeral, after⟩, read, value⟩
    cases found : numeral.value? with
    | none =>
        simp only [found] at value
        cases value
    | some given =>
        simp only [found] at value
        cases value
        exact ⟨numeral, read, found⟩
  · rintro ⟨numeral, read, value⟩
    refine ⟨(numeral, rest), read, ?_⟩
    simp only [value]
    rfl

theorem readSigned_of_spelled
    {number : Number}
    {text rest : List Char}
    (spelled : NumberSpelled number text)
    (detached : Detached rest) :
    readSigned (text ++ rest) = .ok (.number number, rest) := by
  rcases numberSpelled_iff.mp spelled with ⟨numeral, body, parts, value, rfl⟩
  have read : readNumber numeral.negative (body ++ rest) = .ok (number, rest) :=
    readNumber_eq_ok_iff.mpr ⟨numeral, readNumeral_of_spelled parts detached, value⟩
  cases sign : numeral.negative with
  | true =>
      rw [sign] at read
      change numberToken (readNumber true (body ++ rest)) = _
      rw [read]
      rfl
  | false =>
      rw [sign] at read
      rcases parts.begins_with_digit with ⟨first, tail, rfl, digit⟩
      change readSigned (first :: (tail ++ rest)) = _
      rw [readSigned_of_isDigit digit, ← List.cons_append, read]
      rfl

theorem spelled_of_readSigned
    {text rest : List Char}
    {token : Token}
    (read : readSigned text = .ok (token, rest)) :
    ∃ number body, token = .number number ∧ text = body ++ rest ∧
      NumberSpelled number body := by
  have signed (negative : Bool) {text : List Char}
      (read : numberToken (readNumber negative text) = .ok (token, rest)) :
      ∃ number body, token = .number number ∧ text = body ++ rest ∧
        NumberSpelled number (if negative then '-' :: body else body) := by
    rcases numberToken_eq_ok read with ⟨number, readNumber⟩
    rw [readNumber] at read
    cases read
    rcases readNumber_eq_ok_iff.mp readNumber with ⟨numeral, readNumeral, value⟩
    rcases spelled_of_readNumeral readNumeral with ⟨body, rfl, parts⟩
    have sign := parts.negative_eq
    subst sign
    exact ⟨number, body, rfl, rfl,
      numberSpelled_iff.mpr ⟨numeral, body, parts, value, rfl⟩⟩
  unfold readSigned at read
  split at read
  · rcases signed true read with ⟨number, body, rfl, rfl, spelled⟩
    exact ⟨number, '-' :: body, rfl, rfl, spelled⟩
  · exact signed false read

theorem NumberSpelled.begins
    {number : Number}
    {text : List Char}
    (spelled : NumberSpelled number text) :
    ∃ first rest, text = first :: rest ∧ (first = '-' ∨ first.isDigit = true) := by
  rcases numberSpelled_iff.mp spelled with ⟨numeral, body, parts, -, rfl⟩
  cases numeral.negative with
  | true => exact ⟨'-', body, rfl, .inl rfl⟩
  | false =>
      rcases parts.begins_with_digit with ⟨first, rest, rfl, digit⟩
      exact ⟨first, rest, rfl, .inr digit⟩

end Concordance.Json
