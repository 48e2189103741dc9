import Concordance.Json.Value

/-!
# JSON tokens

A JSON text is cut into tokens from left to right: the six punctuation marks,
the three words, numbers and strings, with blanks between them dropped.
Cutting stops at the first place that is no token; the token list then ends
with a `broken` token that tells what is wrong there, and whether it is a
string that broke, since a string may also stand where a key is expected.

A text that merely ends too early is told apart from one that goes wrong.
-/

namespace Concordance.Json

/-- What is wrong at the place where a text stops being JSON. -/
inductive Fault where
  /-- A character that must not stand there. -/
  | malformed
  /-- The end of the text. -/
  | truncated
  deriving DecidableEq, Repr

/-- The tokens of JSON. -/
inductive Token where
  | openArray
  | closeArray
  | openObject
  | closeObject
  | comma
  | colon
  | null
  | bool (value : Bool)
  | number (value : Number)
  | string (value : String)
  /-- The text goes wrong here; `inString` if it does so inside a string. -/
  | broken (inString : Bool) (fault : Fault)
  deriving Repr

/-- The characters that may stand between tokens. -/
def isBlank (char : Char) : Bool :=
  char == ' ' || char == '\t' || char == '\n' || char == '\r'

/-! ### Strings -/

/-- The value of a hexadecimal digit of either case. -/
def hexValue? (char : Char) : Option Nat :=
  if '0' ≤ char ∧ char ≤ '9' then some (char.toNat - '0'.toNat)
  else if 'a' ≤ char ∧ char ≤ 'f' then some (char.toNat - 'a'.toNat + 10)
  else if 'A' ≤ char ∧ char ≤ 'F' then some (char.toNat - 'A'.toNat + 10)
  else none

/-- The number written by four hexadecimal digits. -/
def hexFour? (first second third fourth : Char) : Option Nat := do
  let first ← hexValue? first
  let second ← hexValue? second
  let third ← hexValue? third
  let fourth ← hexValue? fourth
  pure (((first * 16 + second) * 16 + third) * 16 + fourth)

/--
What is wrong where four hexadecimal digits are expected and fewer than four
characters remain: with fewer than four bytes left the text has ended.
-/
def shortHexFault (rest : List Char) : Fault :=
  let size := rest.foldr (fun char size => char.utf8Size + size) 0
  if size < 4 then .truncated else .malformed

/-- The character of a single-letter escape. -/
def simpleEscape? : Char → Option Char
  | '"' => some '"'
  | '\\' => some '\\'
  | '/' => some '/'
  | 'b' => some '\x08'
  | 'f' => some '\x0c'
  | 'n' => some '\n'
  | 'r' => some '\r'
  | 't' => some '\t'
  | _ => none

/-- Whether a code unit is the first half of a surrogate pair. -/
def isHighSurrogate (unit : Nat) : Bool :=
  0xD800 ≤ unit && unit < 0xDC00

/-- Whether a code unit is the second half of a surrogate pair. -/
def isLowSurrogate (unit : Nat) : Bool :=
  0xDC00 ≤ unit && unit < 0xE000

/-- The character of a surrogate pair. -/
def surrogatePair (high low : Nat) : Char :=
  Char.ofNat ((high - 0xD800) * 0x400 + (low - 0xDC00) + 0x10000)

/-- Put a character before what a reading has found. -/
def prepend
    (char : Char)
    (read : Except Fault (List Char × List Char)) :
    Except Fault (List Char × List Char) :=
  read.map fun (chars, rest) => (char :: chars, rest)

theorem prepend_eq_ok_iff
    {char : Char}
    {read : Except Fault (List Char × List Char)}
    {chars rest : List Char} :
    prepend char read = .ok (chars, rest) ↔
      ∃ tail, chars = char :: tail ∧ read = .ok (tail, rest) := by
  rcases read with fault | ⟨readChars, readRest⟩
  · simp [prepend, Except.map]
  · simp only [prepend, Except.map, Except.ok.injEq, Prod.mk.injEq]
    constructor
    · rintro ⟨rfl, rfl⟩
      exact ⟨readChars, rfl, rfl, rfl⟩
    · rintro ⟨tail, rfl, rfl, rfl⟩
      exact ⟨rfl, rfl⟩

/--
Read a string behind its opening quote: its characters and what follows the
closing quote.  A surrogate escape must be followed by its other half.
-/
def readString : List Char → Except Fault (List Char × List Char)
  | [] => .error .truncated
  | '"' :: rest => .ok ([], rest)
  | ['\\'] => .error .truncated
  | '\\' :: 'u' :: first :: second :: third :: fourth :: rest =>
      match hexFour? first second third fourth with
      | none => .error .malformed
      | some unit =>
          if isLowSurrogate unit then .error .malformed
          else if isHighSurrogate unit then
            match rest with
            | [] => .error .truncated
            | ['\\'] => .error .truncated
            | '\\' :: 'u' :: fifth :: sixth :: seventh :: eighth :: rest =>
                match hexFour? fifth sixth seventh eighth with
                | none => .error .malformed
                | some low =>
                    if isLowSurrogate low then
                      prepend (surrogatePair unit low) (readString rest)
                    else .error .malformed
            | '\\' :: 'u' :: digits => .error (shortHexFault digits)
            | _ => .error .malformed
          else prepend (Char.ofNat unit) (readString rest)
  | '\\' :: 'u' :: digits => .error (shortHexFault digits)
  | '\\' :: letter :: rest =>
      match simpleEscape? letter with
      | some char => prepend char (readString rest)
      | none => .error .malformed
  | char :: rest =>
      if char.toNat < 0x20 then .error .malformed
      else prepend char (readString rest)

/-! ### Numbers -/

/-- The parts of a number as they are written. -/
structure Numeral where
  negative : Bool
  whole : List Char
  fraction : List Char
  exponent : Option Int
  deriving DecidableEq, Repr

/-- The digits at the beginning of a text, and the rest. -/
def spanDigits (text : List Char) : List Char × List Char :=
  (text.takeWhile Char.isDigit, text.dropWhile Char.isDigit)

/-- The number that a list of decimal digits writes. -/
def digitsValue (digits : List Char) : Nat :=
  digits.foldl (fun value digit => value * 10 + (digit.toNat - '0'.toNat)) 0

/-- The fault of a place where a digit is expected and none stands. -/
def missingDigitFault : List Char → Fault
  | [] => .truncated
  | _ => .malformed

/-- Read the digits before the point: a single zero, or digits that do not start with one. -/
def readWhole (text : List Char) : Except Fault (List Char × List Char) :=
  match spanDigits text with
  | ([], rest) => .error (missingDigitFault rest)
  | ('0' :: _ :: _, _) => .error .malformed
  | (digits, rest) => .ok (digits, rest)

/-- Read the point and the digits behind it, if there is a point. -/
def readFraction : List Char → Except Fault (List Char × List Char)
  | '.' :: text =>
      match spanDigits text with
      | ([], rest) => .error (missingDigitFault rest)
      | (digits, rest) => .ok (digits, rest)
  | text => .ok ([], text)

/-- Read the digits of an exponent whose sign is known. -/
def readExponentDigits
    (negative : Bool)
    (text : List Char) : Except Fault (Option Int × List Char) :=
  match spanDigits text with
  | ([], rest) => .error (missingDigitFault rest)
  | (digits, rest) =>
      let size : Int := digitsValue digits
      .ok (some (if negative then -size else size), rest)

/-- Read the exponent, if there is one. -/
def readExponent : List Char → Except Fault (Option Int × List Char)
  | 'e' :: '+' :: text | 'E' :: '+' :: text => readExponentDigits false text
  | 'e' :: '-' :: text | 'E' :: '-' :: text => readExponentDigits true text
  | 'e' :: text | 'E' :: text => readExponentDigits false text
  | text => .ok (none, text)

/-- Read the parts of a number behind its sign. -/
def readNumeral
    (negative : Bool)
    (text : List Char) : Except Fault (Numeral × List Char) := do
  let (whole, text) ← readWhole text
  let (fraction, text) ← readFraction text
  let (exponent, text) ← readExponent text
  pure (⟨negative, whole, fraction, exponent⟩, text)

/-- The greatest whole number that is kept exactly. -/
def greatestWhole : Nat := Nat.pow 2 64 - 1

/-- The absolute value of the least whole number that is kept exactly. -/
def leastWholeSize : Nat := Nat.pow 2 63

/-- A significand that grows digit by digit while it stays in 64 bits. -/
structure Accumulator where
  significand : Nat
  exponent : Int
  full : Bool

/-- Take a digit before the point; one that finds no room counts as a power of ten. -/
def Accumulator.takeWhole (state : Accumulator) (digit : Char) : Accumulator :=
  let next := state.significand * 10 + (digit.toNat - '0'.toNat)
  if state.full || greatestWhole < next then
    { state with exponent := state.exponent + 1, full := true }
  else { state with significand := next }

/-- Take a digit behind the point; one that finds no room is dropped. -/
def Accumulator.takeFraction (state : Accumulator) (digit : Char) : Accumulator :=
  let next := state.significand * 10 + (digit.toNat - '0'.toNat)
  if state.full || greatestWhole < next then { state with full := true }
  else
    { state with significand := next, exponent := state.exponent - 1 }

/-- The power of ten as a binary64 number. -/
def powerOfTen? (exponent : Nat) : Option Binary64 :=
  Binary64.ofNat? (Nat.pow 10 exponent)

/-- The greatest power of ten in the format. -/
def greatestPower : Nat := 308

/-- Divide again and again by the same number, until zero is reached. -/
def divideTimes (divisor : Binary64) : Nat → Binary64 → Option Binary64
  | 0, number => some number
  | times + 1, number =>
      if number.isZero then some number
      else (number.div? divisor).bind (divideTimes divisor times)

/-- Divide by a power of ten, however large, in steps that the format can express. -/
def scaleDown (number : Binary64) (exponent : Nat) : Option Binary64 := do
  let times := (exponent - 1) / greatestPower
  let divisor ← powerOfTen? greatestPower
  let smaller ← divideTimes divisor times number
  let last ← powerOfTen? (exponent - times * greatestPower)
  smaller.div? last

/-- Scale a significand by a power of ten, rounding at each step; too large a result is none. -/
def scale? (significand : Nat) (exponent : Int) : Option Binary64 :=
  match Binary64.ofNat? significand with
  | none => none
  | some number =>
      if number.isZero then some number
      else if exponent < 0 then scaleDown number (-exponent).toNat
      else if exponent ≤ greatestPower then
        (powerOfTen? exponent.toNat).bind number.mul?
      else none

/-- The floating-point value of a number: its first digits, as many as fit 64 bits, scaled. -/
def Numeral.float? (numeral : Numeral) : Option Binary64 :=
  let whole := numeral.whole.foldl Accumulator.takeWhole ⟨0, 0, false⟩
  let taken :=
    numeral.fraction.foldl Accumulator.takeFraction { whole with full := false }
  let exponent := taken.exponent + numeral.exponent.getD 0
  (scale? taken.significand exponent).map (Binary64.withSign numeral.negative)

/--
The value of a number.  One without fraction and exponent is whole if it is
in range; minus zero is not whole.
-/
def Numeral.value? (numeral : Numeral) : Option Number :=
  let size := digitsValue numeral.whole
  let written := numeral.fraction.isEmpty && numeral.exponent.isNone
  if written && !numeral.negative && size ≤ greatestWhole then
    some (.integer size)
  else if written && numeral.negative && 0 < size && size ≤ leastWholeSize then
    some (.integer (-(size : Int)))
  else numeral.float?.map .float

/-- Read a number behind its sign. -/
def readNumber
    (negative : Bool)
    (text : List Char) : Except Fault (Number × List Char) := do
  let (numeral, rest) ← readNumeral negative text
  match numeral.value? with
  | some number => pure (number, rest)
  | none => .error .malformed

/-! ### Words -/

/-- Read the letters of a word. -/
def readWord
    (token : Token) :
    (word text : List Char) → Except Fault (Token × List Char)
  | [], text => .ok (token, text)
  | _ :: _, [] => .error .truncated
  | letter :: word, char :: text =>
      if letter = char then readWord token word text else .error .malformed

/-! ### Tokens -/

/--
The outcome of reading a token: the token and the rest, or the token that
stands for the fault.
-/
abbrev TokenRead := Except Token (Token × List Char)

/-- Read a token that is no string. -/
def outsideString (read : Except Fault (Token × List Char)) : TokenRead :=
  read.mapError (Token.broken false)

/-- The token of a number. -/
def numberToken
    (read : Except Fault (Number × List Char)) :
    Except Fault (Token × List Char) :=
  read.map fun (number, rest) => (.number number, rest)

/-- Read a number, sign included, as a token. -/
def readSigned : List Char → Except Fault (Token × List Char)
  | '-' :: text => numberToken (readNumber true text)
  | text => numberToken (readNumber false text)

/-- Read the token at the beginning of a text that is not empty. -/
def readToken (first : Char) (rest : List Char) : TokenRead :=
  match first with
  | '[' => .ok (.openArray, rest)
  | ']' => .ok (.closeArray, rest)
  | '\x7b' => .ok (.openObject, rest)
  | '\x7d' => .ok (.closeObject, rest)
  | ',' => .ok (.comma, rest)
  | ':' => .ok (.colon, rest)
  | 'n' => outsideString (readWord .null "ull".toList rest)
  | 't' => outsideString (readWord (.bool true) "rue".toList rest)
  | 'f' => outsideString (readWord (.bool false) "alse".toList rest)
  | '"' =>
      match readString rest with
      | .ok (chars, after) => .ok (.string (String.ofList chars), after)
      | .error fault => .error (.broken true fault)
  | _ =>
      if first == '-' || first.isDigit then
        outsideString (readSigned (first :: rest))
      else .error (.broken false .malformed)

/-! ### Every token uses up characters -/

theorem readString_length
    {text chars rest : List Char}
    (read : readString text = .ok (chars, rest)) :
    rest.length ≤ text.length := by
  fun_induction readString text generalizing chars
  all_goals
    simp only [prepend_eq_ok_iff, reduceCtorEq, Except.ok.injEq,
      Prod.mk.injEq] at read
  case case2 => simp_all
  all_goals
    rename_i inductionHypothesis
    obtain ⟨tail, -, read⟩ := read
    have := inductionHypothesis read
    simp only [List.length_cons]
    omega

theorem spanDigits_length (text : List Char) :
    (spanDigits text).1.length + (spanDigits text).2.length = text.length := by
  rw [← List.length_append]
  exact congrArg List.length List.takeWhile_append_dropWhile

theorem readWhole_length
    {text digits rest : List Char}
    (read : readWhole text = .ok (digits, rest)) :
    rest.length < text.length := by
  have bound := spanDigits_length text
  unfold readWhole at read
  split at read
  · simp at read
  · simp at read
  · rename_i digits' rest' notEmpty _ found
    simp only [Except.ok.injEq, Prod.mk.injEq] at read
    obtain ⟨rfl, rfl⟩ := read
    rw [found] at bound
    have : digits'.length ≠ 0 := fun empty =>
      notEmpty (List.length_eq_zero_iff.mp empty)
    simp only at bound
    omega

theorem readFraction_length
    {text digits rest : List Char}
    (read : readFraction text = .ok (digits, rest)) :
    rest.length ≤ text.length := by
  unfold readFraction at read
  split at read
  · rename_i after
    have bound := spanDigits_length after
    split at read <;> simp_all
    omega
  · simp_all

theorem readExponentDigits_length
    {negative : Bool}
    {text rest : List Char}
    {exponent : Option Int}
    (read : readExponentDigits negative text = .ok (exponent, rest)) :
    rest.length ≤ text.length := by
  have bound := spanDigits_length text
  unfold readExponentDigits at read
  split at read <;> simp_all
  omega

theorem readExponent_length
    {text rest : List Char}
    {exponent : Option Int}
    (read : readExponent text = .ok (exponent, rest)) :
    rest.length ≤ text.length := by
  unfold readExponent at read
  split at read
  case h_7 => simp_all
  all_goals
    have := readExponentDigits_length read
    simp only [List.length_cons]
    omega

theorem readNumber_length
    {negative : Bool}
    {text rest : List Char}
    {number : Number}
    (read : readNumber negative text = .ok (number, rest)) :
    rest.length < text.length := by
  simp only [readNumber, readNumeral, bind, Except.bind, pure,
    Except.pure] at read
  rcases whole : readWhole text with _ | ⟨digits, afterWhole⟩ <;>
    simp only [whole, reduceCtorEq] at read
  rcases fraction : readFraction afterWhole with _ | ⟨digits, afterFraction⟩ <;>
    simp only [fraction, reduceCtorEq] at read
  rcases exponent : readExponent afterFraction with _ | ⟨power, afterExponent⟩ <;>
    simp only [exponent, reduceCtorEq] at read
  have first := readWhole_length whole
  have second := readFraction_length fraction
  have third := readExponent_length exponent
  split at read
  · simp only [Except.ok.injEq, Prod.mk.injEq] at read
    obtain ⟨-, rfl⟩ := read
    omega
  · simp at read

theorem numberToken_eq_ok
    {read : Except Fault (Number × List Char)}
    {token : Token}
    {rest : List Char}
    (found : numberToken read = .ok (token, rest)) :
    ∃ number, read = .ok (number, rest) := by
  rcases read with fault | ⟨number, after⟩
  · simp [numberToken, Except.map] at found
  · simp only [numberToken, Except.map, Except.ok.injEq, Prod.mk.injEq] at found
    obtain ⟨-, rfl⟩ := found
    exact ⟨number, rfl⟩

theorem readSigned_length
    {text rest : List Char}
    {token : Token}
    (read : readSigned text = .ok (token, rest)) :
    rest.length < text.length := by
  unfold readSigned at read
  split at read
  · obtain ⟨number, found⟩ := numberToken_eq_ok read
    have := readNumber_length found
    simp only [List.length_cons]
    omega
  · obtain ⟨number, found⟩ := numberToken_eq_ok read
    exact readNumber_length found

theorem readWord_length
    {token result : Token}
    {word text rest : List Char}
    (read : readWord token word text = .ok (result, rest)) :
    rest.length ≤ text.length := by
  fun_induction readWord token word text
  all_goals simp_all
  omega

theorem outsideString_eq_ok_iff
    {read : Except Fault (Token × List Char)}
    {token : Token}
    {rest : List Char} :
    outsideString read = .ok (token, rest) ↔ read = .ok (token, rest) := by
  cases read with
  | ok result =>
      show (Except.ok result : TokenRead) = .ok (token, rest) ↔ _
      simp
  | error fault => exact ⟨nofun, nofun⟩

theorem readToken_length
    {first : Char}
    {text rest : List Char}
    {token : Token}
    (read : readToken first text = .ok (token, rest)) :
    rest.length ≤ text.length := by
  unfold readToken at read
  split at read
  case h_7 | h_8 | h_9 =>
    exact readWord_length (outsideString_eq_ok_iff.mp read)
  case h_10 =>
    split at read
    · rename_i found
      have := readString_length found
      simp only [Except.ok.injEq, Prod.mk.injEq] at read
      obtain ⟨-, rfl⟩ := read
      omega
    · simp at read
  case h_11 =>
    split at read
    · have := readSigned_length (outsideString_eq_ok_iff.mp read)
      simp only [List.length_cons] at this
      omega
    · simp at read
  all_goals
    simp only [Except.ok.injEq, Prod.mk.injEq] at read
    obtain ⟨-, rfl⟩ := read
    exact Nat.le_refl _

/-- The tokens of a text. -/
def tokens : List Char → List Token
  | [] => []
  | first :: rest =>
      if isBlank first then tokens rest
      else
        match _read : readToken first rest with
        | .ok (token, after) => token :: tokens after
        | .error broken => [broken]
termination_by text => text.length
decreasing_by
  · simp
  · have := readToken_length ‹_›
    simp only [List.length_cons]
    omega

end Concordance.Json
