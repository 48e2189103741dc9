import Concordance.Binary64.Basic

/-!
# Shortest decimal digits

The decimal text of a binary64 number has as few digits as possible among
the decimals that round to the number, and is the nearest of those.
`shortestDigits` finds them: for one digit, two digits and so on, the only
candidates are the two neighbours of the exact value on that decimal grid.
`text` lays the digits out, positionally for moderate magnitudes and with an
exponent otherwise.
-/

namespace Concordance.Binary64

/-- The decimal exponent of a positive ratio: the largest power of ten that does not exceed it. -/
def decimalExponent (numerator denominator : Nat) : Int :=
  if denominator ≤ numerator then
    ((Nat.toDigits 10 (numerator / denominator)).length : Int) - 1
  else
    let inverse := denominator / numerator
    let guess : Int := -((Nat.toDigits 10 inverse).length : Int)
    if denominator ≤ numerator * Nat.pow 10 (-(guess + 1)).toNat then guess + 1
    else guess

/-- Whether `digits × 10 ^ exponent` rounds to the given number. -/
def readsBack
    (number : Binary64)
    (digits : Nat)
    (exponent : Int) : Bool :=
  ofDecimal? false digits exponent == some (number.withSign false)

/-- The distance between a decimal and a ratio, over a common denominator. -/
def distance
    (numerator denominator digits : Nat)
    (exponent : Int) : Nat :=
  let (left, right) :=
    if 0 ≤ exponent then
      (digits * Nat.pow 10 exponent.toNat * denominator, numerator)
    else
      (digits * denominator, numerator * Nat.pow 10 (-exponent).toNat)
  if left ≤ right then right - left else left - right

/--
The shortest digits with their exponent, tried from `count` digits on; the
value is `digits × 10 ^ exponent`.  Seventeen digits always read back, so
the search needs at most `remaining` further digits.
-/
def searchDigits
    (number : Binary64)
    (numerator denominator : Nat)
    (leading : Int) :
    (remaining count : Nat) → Nat × Int
  | 0, count => (0, leading - count)
  | remaining + 1, count =>
      let exponent := leading - (count : Int) + 1
      let (top, bottom) :=
        if 0 ≤ exponent then
          (numerator, denominator * Nat.pow 10 exponent.toNat)
        else (numerator * Nat.pow 10 (-exponent).toNat, denominator)
      let below := top / bottom
      let above := below + 1
      match readsBack number below exponent, readsBack number above exponent with
      | true, true =>
          let down := distance numerator denominator below exponent
          let up := distance numerator denominator above exponent
          if down < up || (down == up && below % 2 == 0) then (below, exponent)
          else (above, exponent)
      | true, false => (below, exponent)
      | false, true => (above, exponent)
      | false, false =>
          searchDigits number numerator denominator leading remaining (count + 1)

/-- The shortest digits of a number other than zero. -/
def shortestDigits (number : Binary64) : Nat × Int :=
  let (numerator, denominator) := number.ratio
  searchDigits number numerator denominator
    (decimalExponent numerator denominator) 17 1

/-- How a decimal is laid out. -/
structure Notation where
  /-- The least leading exponent that is written positionally. -/
  leastPositional : Int
  /-- The first leading exponent that is no longer written positionally. -/
  firstExponential : Int

/-- Numbers from `0.00001` up to below `10 ^ 16` are written positionally. -/
def Notation.standard : Notation :=
  ⟨-5, 16⟩

/-- Lay out digits whose first one stands for `10 ^ leading`. -/
def layOut
    (style : Notation)
    (digits : List Char)
    (leading : Int) : List Char :=
  if style.leastPositional ≤ leading ∧ leading < style.firstExponential then
    if leading < 0 then
      "0.".toList ++ List.replicate ((-leading).toNat - 1) '0' ++ digits
    else
      let whole := leading.toNat + 1
      let before := digits.take whole
      let after := digits.drop whole
      before ++ List.replicate (whole - before.length) '0' ++ ['.']
        ++ (if after.isEmpty then ['0'] else after)
  else
    let mantissa :=
      match digits with
      | first :: second :: rest => first :: '.' :: second :: rest
      | _ => digits
    let sign := if leading < 0 then '-' else '+'
    mantissa ++ ['e', sign] ++ Nat.toDigits 10 leading.natAbs

/-- Drop the zeros at the end of a digit string. -/
def dropTrailingZeros (digits : List Char) : List Char :=
  (digits.reverse.dropWhile (· == '0')).reverse

/-- The decimal text of a number. -/
def text (number : Binary64) : List Char :=
  let sign := if number.negative then ['-'] else []
  if number.isZero then sign ++ "0.0".toList
  else
    let (digits, exponent) := number.shortestDigits
    let shown := Nat.toDigits 10 digits
    let leading := exponent + (shown.length : Int) - 1
    sign ++ layOut Notation.standard (dropTrailingZeros shown) leading

end Concordance.Binary64
