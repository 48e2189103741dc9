import Concordance.Proofs.Binary64.Rounding
import Concordance.Proofs.Json.Numerals
import Mathlib.Data.List.Induction

/-!
# Which numerals are in range

Of the digits of a numeral those are kept that fit 64 bits, first before the point
and then behind it (`Numeral.KeptAs`).  What they write is scaled by the power of ten
that is left.  A negative power never takes a number out of the format, down to zero
if need be; a positive one does if it is not in the format itself, or if the product
with it reaches `Binary64.overflow`.  `exists_numberSpelled_iff` says it of the texts.
-/

namespace Concordance.Json

open Binary64 (overflow)

/-! ### The digits that are kept -/

/-- Of the digits behind others, the longest leading part that fits 64 bits with them. -/
structure KeptBehind (before digits kept : List Char) : Prop where
  leading : kept <+: digits
  fits : digitsValue (before ++ kept) < 2 ^ 64
  longest : ∀ longer, longer <+: digits → digitsValue (before ++ longer) < 2 ^ 64 →
    longer <+: kept

/--
The whole number that the kept digits of a numeral write, and the power of ten it
stands for: a digit before the point that is not kept raises it, and one behind the
point that is kept lowers it.
-/
inductive Numeral.KeptAs (numeral : Numeral) : Nat → Int → Prop where
  | digits {whole fraction : List Char}
      (wholeKept : KeptBehind [] numeral.whole whole)
      (fractionKept : KeptBehind whole numeral.fraction fraction) :
      numeral.KeptAs (digitsValue (whole ++ fraction))
        ((numeral.whole.length - whole.length : Int) - fraction.length +
          numeral.exponent.getD 0)

/--
The whole numbers that can be scaled by a power of ten: zero, every number if the power
is negative, and else those whose product with the power does not overflow.  Both factors
are taken to the nearest numbers of the format before they are multiplied.
-/
inductive Scalable : Nat → Int → Prop where
  | zero {exponent : Int} : Scalable 0 exponent
  | fraction {significand : Nat} {exponent : Int}
      (negative : exponent < 0) :
      Scalable significand exponent
  | product {significand exponent : Nat} {number power : Binary64}
      (atMost : exponent ≤ 308)
      (nearest : Binary64.ofNat? significand = some number)
      (nearestPower : Binary64.ofNat? (10 ^ exponent) = some power)
      (below : number.ratio.1 * power.ratio.1 < overflow * (number.ratio.2 * power.ratio.2)) :
      Scalable significand exponent

/-- The numerals in range: what is kept of them can be scaled. -/
def Numeral.InRange (numeral : Numeral) : Prop :=
  ∃ significand exponent, numeral.KeptAs significand exponent ∧
    Scalable significand exponent

theorem KeptBehind.unique
    {before digits kept others : List Char}
    (keptBehind : KeptBehind before digits kept)
    (othersBehind : KeptBehind before digits others) :
    kept = others :=
  (othersBehind.longest kept keptBehind.leading keptBehind.fits).eq_of_length_le
    (keptBehind.longest others othersBehind.leading othersBehind.fits).length_le

theorem Numeral.KeptAs.unique
    {numeral : Numeral}
    {significand otherSignificand : Nat}
    {exponent otherExponent : Int}
    (keptAs : numeral.KeptAs significand exponent)
    (otherAs : numeral.KeptAs otherSignificand otherExponent) :
    significand = otherSignificand ∧ exponent = otherExponent := by
  cases keptAs with
  | digits wholeKept fractionKept =>
      cases otherAs with
      | digits wholeOther fractionOther =>
          cases wholeKept.unique wholeOther
          cases fractionKept.unique fractionOther
          exact ⟨rfl, rfl⟩

theorem digitsValue_append_singleton (digits : List Char) (digit : Char) :
    digitsValue (digits ++ [digit]) =
      digitsValue digits * 10 + (digit.toNat - '0'.toNat) := by
  simp [digitsValue]

theorem digitsValue_le_append (digits others : List Char) :
    digitsValue digits ≤ digitsValue (digits ++ others) := by
  induction others using List.reverseRecOn with
  | nil => rw [List.append_nil]
  | append_singleton others digit induction =>
      rw [← List.append_assoc, digitsValue_append_singleton]
      omega

theorem keptBehind_nil
    {before : List Char}
    (room : digitsValue before < 2 ^ 64) :
    KeptBehind before [] [] where
  leading := List.nil_prefix
  fits := by rwa [List.append_nil]
  longest _ leading _ := leading

theorem KeptBehind.cons
    {before digits kept : List Char}
    {digit : Char}
    (keptBehind : KeptBehind (before ++ [digit]) digits kept) :
    KeptBehind before (digit :: digits) (digit :: kept) where
  leading := List.cons_prefix_cons.mpr ⟨rfl, keptBehind.leading⟩
  fits := by
    rw [List.append_cons]
    exact keptBehind.fits
  longest := by
    rintro (_ | ⟨first, longer⟩) leading fits
    · exact List.nil_prefix
    · rcases List.cons_prefix_cons.mp leading with ⟨rfl, rest⟩
      rw [List.append_cons] at fits
      exact List.cons_prefix_cons.mpr ⟨rfl, keptBehind.longest longer rest fits⟩

/-- If the first digit finds no room, none is kept. -/
theorem keptBehind_of_no_room
    {before digits : List Char}
    {digit : Char}
    (room : digitsValue before < 2 ^ 64)
    (noRoom : 2 ^ 64 ≤ digitsValue (before ++ [digit])) :
    KeptBehind before (digit :: digits) [] where
  leading := List.nil_prefix
  fits := by rwa [List.append_nil]
  longest := by
    rintro (_ | ⟨first, longer⟩) leading fits
    · exact List.nil_prefix
    · rcases List.cons_prefix_cons.mp leading with ⟨rfl, -⟩
      have longerValue := digitsValue_le_append (before ++ [first]) longer
      rw [← List.append_cons] at longerValue
      omega

/-! ### Keeping digits one by one -/

/--
How a digit is taken into a significand: kept while there is room, and lost from the
first that finds none.  Either way the power of ten may change.
-/
structure Takes
    (take : Accumulator → Char → Accumulator)
    (ifKept ifLost : Int) : Prop where
  keeps : ∀ significand exponent digit,
    significand * 10 + (digit.toNat - '0'.toNat) < 2 ^ 64 →
      take ⟨significand, exponent, false⟩ digit =
        ⟨significand * 10 + (digit.toNat - '0'.toNat), exponent + ifKept, false⟩
  loses : ∀ significand exponent digit,
    2 ^ 64 ≤ significand * 10 + (digit.toNat - '0'.toNat) →
      take ⟨significand, exponent, false⟩ digit = ⟨significand, exponent + ifLost, true⟩
  full : ∀ significand exponent digit,
    take ⟨significand, exponent, true⟩ digit = ⟨significand, exponent + ifLost, true⟩

theorem greatestWhole_lt_iff {size : Nat} : greatestWhole < size ↔ 2 ^ 64 ≤ size := by
  rw [greatestWhole, Nat.pow_eq]
  omega

theorem takes_takeWhole : Takes Accumulator.takeWhole 0 1 where
  keeps _ _ _ room := by
    simp only [Accumulator.takeWhole, Bool.false_or, decide_eq_true_eq, greatestWhole_lt_iff,
      Nat.not_le_of_lt room, if_false, Int.add_zero]
  loses _ _ _ noRoom := by
    simp only [Accumulator.takeWhole, Bool.false_or, decide_eq_true_eq, greatestWhole_lt_iff,
      noRoom, if_true]
  full _ _ _ := rfl

theorem takes_takeFraction : Takes Accumulator.takeFraction (-1) 0 where
  keeps _ _ _ room := by
    simp only [Accumulator.takeFraction, Bool.false_or, decide_eq_true_eq,
      greatestWhole_lt_iff, Nat.not_le_of_lt room, if_false]
    rfl
  loses _ _ _ noRoom := by
    simp only [Accumulator.takeFraction, Bool.false_or, decide_eq_true_eq,
      greatestWhole_lt_iff, noRoom, if_true, Int.add_zero]
  full _ _ _ := by
    simp only [Accumulator.takeFraction, Bool.true_or, if_true, Int.add_zero]

theorem Takes.foldl_full
    {take : Accumulator → Char → Accumulator}
    {ifKept ifLost : Int}
    (takes : Takes take ifKept ifLost)
    (digits : List Char)
    (significand : Nat)
    (exponent : Int) :
    digits.foldl take ⟨significand, exponent, true⟩ =
      ⟨significand, exponent + ifLost * digits.length, true⟩ := by
  induction digits generalizing exponent with
  | nil => simp
  | cons digit digits induction =>
      rw [List.foldl_cons, takes.full, induction, List.length_cons]
      congr 1
      push_cast
      ring

/-- Taking digits one by one keeps the longest leading part that fits. -/
theorem Takes.foldl_keptBehind
    {take : Accumulator → Char → Accumulator}
    {ifKept ifLost : Int}
    (takes : Takes take ifKept ifLost)
    {before : List Char}
    (room : digitsValue before < 2 ^ 64)
    (digits : List Char)
    (exponent : Int) :
    ∃ kept full, KeptBehind before digits kept ∧
      digits.foldl take ⟨digitsValue before, exponent, false⟩ =
        ⟨digitsValue (before ++ kept),
          exponent + ifKept * kept.length + ifLost * (digits.length - kept.length), full⟩ := by
  -- A digit that is kept stands before the others from then on.
  induction digits generalizing before exponent with
  | nil => exact ⟨[], false, keptBehind_nil room, by simp⟩
  | cons digit digits induction =>
      have grown := digitsValue_append_singleton before digit
      by_cases fits : digitsValue (before ++ [digit]) < 2 ^ 64
      · rcases induction fits (exponent + ifKept) with ⟨kept, full, keptBehind, folded⟩
        refine ⟨digit :: kept, full, keptBehind.cons, ?_⟩
        rw [List.foldl_cons, takes.keeps _ _ _ (grown ▸ fits), ← grown, folded,
          ← List.append_cons, List.length_cons, List.length_cons]
        congr 1
        push_cast
        ring
      · have noRoom := Nat.le_of_not_lt fits
        refine ⟨[], true, keptBehind_of_no_room room noRoom, ?_⟩
        rw [List.foldl_cons, takes.loses _ _ _ (grown ▸ noRoom), takes.foldl_full,
          List.append_nil, List.length_cons, List.length_nil]
        congr 1
        push_cast
        ring

theorem Numeral.KeptAs.significand_lt
    {numeral : Numeral}
    {significand : Nat}
    {exponent : Int}
    (keptAs : numeral.KeptAs significand exponent) :
    significand < 2 ^ 64 := by
  cases keptAs with
  | digits _ fractionKept => exact fractionKept.fits

/-- What the reader takes of a numeral, digit by digit, is what is kept of it. -/
theorem keptAs_taken (numeral : Numeral) :
    ∃ significand exponent, numeral.KeptAs significand exponent ∧
      numeral.float? =
        (scale? significand exponent).map (Binary64.withSign numeral.negative) := by
  have empty : digitsValue [] < 2 ^ 64 := by decide
  rcases takes_takeWhole.foldl_keptBehind empty numeral.whole 0 with
    ⟨whole, _, wholeKept, wholeTaken⟩
  rcases takes_takeFraction.foldl_keptBehind wholeKept.fits numeral.fraction
      (0 + 0 * whole.length + 1 * (numeral.whole.length - whole.length)) with
    ⟨fraction, _, fractionKept, fractionTaken⟩
  refine ⟨_, _, .digits wholeKept fractionKept, ?_⟩
  change numeral.whole.foldl Accumulator.takeWhole ⟨0, 0, false⟩ = _ at wholeTaken
  rw [List.nil_append] at wholeTaken fractionTaken
  simp only [Numeral.float?, wholeTaken, fractionTaken]
  congr 2
  ring

/-! ### Scaling by a power of ten -/

theorem exists_powerOfTen?
    {exponent : Nat}
    (atMost : exponent ≤ 308) :
    ∃ power, powerOfTen? exponent = some power ∧ power.ratio.2 ≤ power.ratio.1 := by
  have below : 10 ^ exponent < overflow :=
    calc 10 ^ exponent
        ≤ 10 ^ 308 := Nat.pow_le_pow_right (by decide) atMost
      _ < overflow := by decide +kernel
  rcases Binary64.exists_ofNat?_iff.mpr below with ⟨power, found⟩
  exact ⟨power, found, Binary64.one_le_of_ofNat? (Nat.pow_pos (by decide)) found⟩

theorem exists_divideTimes
    {divisor : Binary64}
    (atLeastOne : divisor.ratio.2 ≤ divisor.ratio.1)
    (times : Nat)
    {number : Binary64}
    (inFormat : number.InFormat) :
    ∃ quotient, divideTimes divisor times number = some quotient ∧ quotient.InFormat := by
  induction times generalizing number with
  | zero => exact ⟨number, rfl, inFormat⟩
  | succ times induction =>
      rw [divideTimes]
      split
      · exact ⟨number, rfl, inFormat⟩
      · rcases inFormat.exists_div? atLeastOne with ⟨quotient, divided, quotientInFormat⟩
        rw [divided]
        exact induction quotientInFormat

/-- Dividing by powers of ten never leaves the format. -/
theorem exists_scaleDown
    {number : Binary64}
    (inFormat : number.InFormat)
    (exponent : Nat) :
    ∃ scaled, scaleDown number exponent = some scaled := by
  have lastLe : exponent - (exponent - 1) / greatestPower * greatestPower ≤ 308 := by
    unfold greatestPower
    omega
  rcases exists_powerOfTen? (Nat.le_refl greatestPower) with
    ⟨divisor, divisorFound, divisorLarge⟩
  rcases exists_divideTimes divisorLarge ((exponent - 1) / greatestPower) inFormat with
    ⟨smaller, divided, smallerInFormat⟩
  rcases exists_powerOfTen? lastLe with ⟨last, lastFound, lastLarge⟩
  rcases smallerInFormat.exists_div? lastLarge with ⟨scaled, scaledFound, -⟩
  refine ⟨scaled, ?_⟩
  simp only [scaleDown, divisorFound, divided, lastFound, Option.bind_eq_bind,
    Option.bind_some, scaledFound]

/-- A power of ten that is no fraction scales a number if the product does not overflow. -/
theorem Scalable.below
    {significand exponent : Nat}
    (scalable : Scalable significand exponent)
    (nonzero : 0 < significand) :
    exponent ≤ 308 ∧ ∃ number power,
      Binary64.ofNat? significand = some number ∧
      Binary64.ofNat? (10 ^ exponent) = some power ∧
      number.ratio.1 * power.ratio.1 < overflow * (number.ratio.2 * power.ratio.2) := by
  generalize scaled : (exponent : Int) = size at scalable
  cases scalable with
  | zero => exact (Nat.lt_irrefl 0 nonzero).elim
  | fraction negative => omega
  | product atMost nearest nearestPower below =>
      cases Int.ofNat.inj scaled
      exact ⟨atMost, _, _, nearest, nearestPower, below⟩

theorem exists_scale?_iff
    {significand : Nat}
    {exponent : Int}
    (fits : significand < 2 ^ 64) :
    (∃ scaled, scale? significand exponent = some scaled) ↔
      Scalable significand exponent := by
  rcases Nat.eq_zero_or_pos significand with rfl | nonzero
  · exact iff_of_true ⟨Binary64.zero false, rfl⟩ .zero
  have small : significand < overflow := fits.trans (by decide +kernel)
  rcases Binary64.exists_ofNat?_iff.mpr small with ⟨number, nearest⟩
  have notZero :=
    Binary64.isZero_eq_false_of_one_le (Binary64.one_le_of_ofNat? nonzero nearest)
  simp only [scale?, nearest, notZero, Bool.false_eq_true, if_false]
  split
  · rename_i negative
    have inFormat := Binary64.inFormat_of_ofRatio? Nat.one_pos nearest
    exact iff_of_true (exists_scaleDown inFormat _) (.fraction negative)
  · rename_i notNegative
    rcases Int.eq_ofNat_of_zero_le (Int.not_lt.mp notNegative) with ⟨size, rfl⟩
    split
    · rename_i atMost
      have atMost : size ≤ 308 := Int.ofNat_le.mp atMost
      rcases exists_powerOfTen? atMost with ⟨power, nearestPower, -⟩
      rw [Int.toNat_natCast, nearestPower, Option.bind_some, Binary64.exists_mul?_iff]
      constructor
      · exact .product atMost nearest nearestPower
      · intro scalable
        rcases scalable.below nonzero with ⟨-, _, _, nearestToo, nearestPowerToo, below⟩
        rw [nearest] at nearestToo
        rw [← Nat.pow_eq, ← powerOfTen?, nearestPower] at nearestPowerToo
        cases nearestToo
        cases nearestPowerToo
        exact below
    · rename_i tooGreat
      refine iff_of_false (fun ⟨_, found⟩ => nomatch found) (fun scalable => tooGreat ?_)
      exact Int.ofNat_le.mpr (scalable.below nonzero).1

/-! ### The range -/

theorem exists_float?_iff {numeral : Numeral} :
    (∃ value, numeral.float? = some value) ↔ numeral.InRange := by
  rcases keptAs_taken numeral with ⟨significand, exponent, keptAs, taken⟩
  rw [taken, ← Option.isSome_iff_exists, Option.isSome_map, Option.isSome_iff_exists,
    exists_scale?_iff keptAs.significand_lt]
  constructor
  · exact fun scalable => ⟨significand, exponent, keptAs, scalable⟩
  · rintro ⟨_, _, otherAs, scalable⟩
    rcases keptAs.unique otherAs with ⟨rfl, rfl⟩
    exact scalable

/-- A whole number of 64 bits is far from too large. -/
theorem scalable_zero
    {significand : Nat}
    (fits : significand < 2 ^ 64) :
    Scalable significand (0 : Nat) := by
  have small : significand < overflow := fits.trans (by decide +kernel)
  have one : Binary64.ofNat? (10 ^ 0) = some ⟨false, 2 ^ 52, -52⟩ := by decide +kernel
  rcases Binary64.exists_ofNat?_iff.mpr small with ⟨number, nearest⟩
  have below := (Binary64.inFormat_of_ofRatio? Nat.one_pos nearest).ratio_lt
  refine .product (Nat.zero_le _) nearest one ?_
  rw [← Nat.mul_assoc]
  exact Nat.mul_lt_mul_of_pos_right below (by decide)

/-- Digits alone are kept as they stand if they fit, and are then in range. -/
theorem Numeral.inRange_of_whole
    {numeral : Numeral}
    (noFraction : numeral.fraction.isEmpty = true)
    (noExponent : numeral.exponent.isNone = true)
    (fits : digitsValue numeral.whole < 2 ^ 64) :
    numeral.InRange := by
  rw [List.isEmpty_iff] at noFraction
  rw [Option.isNone_iff_eq_none] at noExponent
  have wholeKept : KeptBehind [] numeral.whole numeral.whole :=
    ⟨List.prefix_rfl, fits, fun _ leading _ => leading⟩
  have fractionKept : KeptBehind numeral.whole numeral.fraction [] := by
    rw [noFraction]
    exact keptBehind_nil fits
  refine ⟨_, _, .digits wholeKept fractionKept, ?_⟩
  rw [List.append_nil, noExponent, Int.sub_self]
  exact scalable_zero fits

/-- **Range.**  A numeral has a value exactly if it is in range. -/
theorem exists_value?_iff {numeral : Numeral} :
    (∃ number, numeral.value? = some number) ↔ numeral.InRange := by
  simp only [Numeral.value?]
  split
  · rename_i written
    simp only [Bool.and_eq_true, Bool.not_eq_true', decide_eq_true_eq] at written
    rcases written with ⟨⟨⟨noFraction, noExponent⟩, -⟩, fits⟩
    exact iff_of_true ⟨_, rfl⟩
      (Numeral.inRange_of_whole noFraction noExponent
        (Nat.lt_of_not_le (mt greatestWhole_lt_iff.mpr (Nat.not_lt_of_le fits))))
  split
  · rename_i written
    simp only [Bool.and_eq_true, decide_eq_true_eq] at written
    rcases written with ⟨⟨⟨⟨noFraction, noExponent⟩, -⟩, -⟩, fits⟩
    exact iff_of_true ⟨_, rfl⟩
      (Numeral.inRange_of_whole noFraction noExponent (fits.trans_lt (by decide)))
  · rw [← Option.isSome_iff_exists, Option.isSome_map, Option.isSome_iff_exists,
      exists_float?_iff]

/-- A text is the text of one numeral at most, and its sign is written. -/
theorem NumeralSpelled.unique
    {numeral other : Numeral}
    {body otherBody : List Char}
    (spelled : NumeralSpelled numeral.negative numeral body)
    (otherSpelled : NumeralSpelled other.negative other otherBody)
    (same : (if numeral.negative then '-' :: body else body) =
      if other.negative then '-' :: otherBody else otherBody) :
    numeral = other := by
  rcases spelled.begins_with_digit with ⟨first, rest, rfl, digit⟩
  rcases otherSpelled.begins_with_digit with ⟨otherFirst, otherRest, rfl, otherDigit⟩
  have noSign {char : Char} (digit : char.isDigit = true) : char ≠ '-' := by
    rintro rfl
    exact absurd digit (by decide)
  have bodies : numeral.negative = other.negative ∧
      first :: rest = otherFirst :: otherRest := by
    cases sign : numeral.negative <;> cases otherSign : other.negative <;>
      rw [sign, otherSign] at same
    case false.false => exact ⟨rfl, same⟩
    case false.true => exact (noSign digit (List.cons.inj same).1).elim
    case true.false => exact (noSign otherDigit (List.cons.inj same).1.symm).elim
    case true.true => exact ⟨rfl, (List.cons.inj same).2⟩
  rcases bodies with ⟨signs, bodies⟩
  rw [← signs, ← bodies] at otherSpelled
  have read := readNumeral_of_spelled spelled detached_nil
  rw [readNumeral_of_spelled otherSpelled detached_nil] at read
  cases read
  rfl

/-- The text of a numeral spells a number exactly if the numeral is in range. -/
theorem exists_numberSpelled_iff
    {numeral : Numeral}
    {body : List Char}
    (spelled : NumeralSpelled numeral.negative numeral body) :
    (∃ number, NumberSpelled number (if numeral.negative then '-' :: body else body)) ↔
      numeral.InRange := by
  rw [← exists_value?_iff]
  constructor
  · rintro ⟨number, numberSpelled⟩
    rcases numberSpelled_iff.mp numberSpelled with ⟨other, otherBody, otherSpelled, value, same⟩
    rw [spelled.unique otherSpelled same]
    exact ⟨number, value⟩
  · rintro ⟨number, value⟩
    exact ⟨number, numberSpelled_iff.mpr ⟨numeral, body, spelled, value, rfl⟩⟩

end Concordance.Json
