/-!
# Finite binary floating-point numbers

The finite numbers of the IEEE 754 binary64 format, each in one canonical
record: a sign and a value `significand × 2 ^ exponent`.  All arithmetic is
exact arithmetic on ratios of natural numbers, followed by one rounding to
the nearest representable number, ties to the even significand.
-/

namespace Concordance

/--
A finite binary64 number.  The significand is below `2 ^ 53`; it is at least
`2 ^ 52` unless the exponent is the least one, `-1074`.
-/
structure Binary64 where
  negative : Bool
  significand : Nat
  exponent : Int
  deriving DecidableEq, Repr

namespace Binary64

/-- The least exponent of the format. -/
def leastExponent : Int := -1074

/-- The greatest exponent of the format. -/
def greatestExponent : Int := 971

/-- Zero, with a sign. -/
def zero (negative : Bool) : Binary64 :=
  ⟨negative, 0, leastExponent⟩

/-- Whether a number is zero, of either sign. -/
def isZero (number : Binary64) : Bool :=
  number.significand == 0

/-- The number with its sign turned if asked. -/
def withSign (negative : Bool) (number : Binary64) : Binary64 :=
  { number with negative := negative }

/-- The absolute value as a ratio of natural numbers. -/
def ratio (number : Binary64) : Nat × Nat :=
  if 0 ≤ number.exponent then
    (number.significand * Nat.pow 2 number.exponent.toNat, 1)
  else
    (number.significand, Nat.pow 2 (-number.exponent).toNat)

/-- Divide a ratio by a power of two. -/
def descale (numerator denominator : Nat) (exponent : Int) : Nat × Nat :=
  if 0 ≤ exponent then (numerator, denominator * Nat.pow 2 exponent.toNat)
  else (numerator * Nat.pow 2 (-exponent).toNat, denominator)

/-- The nearest natural number to a ratio, ties to the even one. -/
def roundHalfEven (numerator denominator : Nat) : Nat :=
  let quotient := numerator / denominator
  let twice := 2 * (numerator % denominator)
  if twice < denominator then quotient
  else if denominator < twice then quotient + 1
  else if quotient % 2 = 0 then quotient
  else quotient + 1

/--
The exponent at which a positive ratio is rounded: the one that leaves 53
binary digits before the point, but not below the least exponent.
-/
def roundingExponent (numerator denominator : Nat) : Int :=
  let low :=
    max leastExponent ((numerator.log2 : Int) - (denominator.log2 : Int) - 53)
  let scaled := descale numerator denominator low
  if Nat.pow 2 53 ≤ scaled.1 / scaled.2 then low + 1 else low

/--
The nearest binary64 number to a ratio, or nothing when the ratio is too
large for the format.
-/
def ofRatio?
    (negative : Bool)
    (numerator denominator : Nat) : Option Binary64 :=
  if numerator = 0 then some (zero negative)
  else
    let exponent := roundingExponent numerator denominator
    let scaled := descale numerator denominator exponent
    let significand := roundHalfEven scaled.1 scaled.2
    let carried : Binary64 :=
      if significand = Nat.pow 2 53 then ⟨negative, Nat.pow 2 52, exponent + 1⟩
      else ⟨negative, significand, exponent⟩
    if carried.exponent ≤ greatestExponent then some carried else none

/-- The nearest number to a natural number. -/
def ofNat? (number : Nat) : Option Binary64 :=
  ofRatio? false number 1

/-- The rounded product of two absolute values. -/
def mul? (left right : Binary64) : Option Binary64 :=
  let (leftTop, leftBottom) := left.ratio
  let (rightTop, rightBottom) := right.ratio
  ofRatio? false (leftTop * rightTop) (leftBottom * rightBottom)

/-- The rounded quotient of two absolute values. -/
def div? (left right : Binary64) : Option Binary64 :=
  let (leftTop, leftBottom) := left.ratio
  let (rightTop, rightBottom) := right.ratio
  ofRatio? false (leftTop * rightBottom) (leftBottom * rightTop)

/-- The nearest number to `digits × 10 ^ exponent`. -/
def ofDecimal?
    (negative : Bool)
    (digits : Nat)
    (exponent : Int) : Option Binary64 :=
  if digits = 0 then some (zero negative)
  else if 400 < exponent then none
  else if exponent < -400 - (digits.log2 : Int) then some (zero negative)
  else if 0 ≤ exponent then
    ofRatio? negative (digits * Nat.pow 10 exponent.toNat) 1
  else
    ofRatio? negative digits (Nat.pow 10 (-exponent).toNat)

end Binary64

end Concordance
