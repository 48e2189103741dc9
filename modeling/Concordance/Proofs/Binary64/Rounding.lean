import Concordance.Binary64.Basic
import Mathlib.Tactic.Ring

/-!
# Where rounding overflows

A ratio is rounded at the exponent that leaves it 53 binary digits, or at the
least one (`rounded_roundingExponent`).  So it has a nearest number exactly if it is
below `2 ^ 1024 - 2 ^ 970`, which is as near to the greatest number of the format
as to `2 ^ 1024` (`exists_ofRatio?_iff`).  All comparisons are made between natural
numbers, in units of the least power of two.
-/

namespace Concordance.Binary64

/-- The place of half a unit at the greatest exponent. -/
def halfUnit : Nat :=
  (greatestExponent - 1).toNat

/-- The least ratio that is too large for the format. -/
def overflow : Nat :=
  (2 ^ 54 - 1) * 2 ^ halfUnit

/-- The binary places behind the point that the least exponent leaves. -/
def places : Nat :=
  1074

/-- An exponent, counted from the least one. -/
def level (exponent : Int) : Nat :=
  (exponent - leastExponent).toNat

variable {numerator denominator : Nat}

theorem denominator_descale_pos (positive : 0 < denominator) (exponent : Int) :
    0 < (descale numerator denominator exponent).2 := by
  rw [descale]
  split
  · exact Nat.mul_pos positive (Nat.two_pow_pos _)
  · exact positive

/-- Comparing with a scaled ratio is comparing in units of the least power of two. -/
theorem le_descale_iff
    (positive : 0 < denominator)
    {exponent : Int}
    (least : leastExponent ≤ exponent)
    (bound : Nat) :
    bound ≤ (descale numerator denominator exponent).1 /
        (descale numerator denominator exponent).2 ↔
      bound * (denominator * 2 ^ level exponent) ≤ numerator * 2 ^ places := by
  rw [Nat.le_div_iff_mul_le (denominator_descale_pos positive exponent), descale, level]
  split
  · rename_i upwards
    have shifted : (exponent - leastExponent).toNat = exponent.toNat + places := by
      unfold leastExponent places at *
      omega
    have regrouped : bound * (denominator * 2 ^ (exponent.toNat + places)) =
        bound * (denominator * 2 ^ exponent.toNat) * 2 ^ places := by ring
    rw [shifted, regrouped, Nat.mul_le_mul_right_iff (Nat.two_pow_pos _)]
    rfl
  · rename_i downwards
    have shifted : places = (-exponent).toNat + (exponent - leastExponent).toNat := by
      unfold leastExponent places at *
      omega
    have parted : 2 ^ places =
        2 ^ (-exponent).toNat * 2 ^ (exponent - leastExponent).toNat := by
      rw [← Nat.pow_add, ← shifted]
    rw [parted, ← Nat.mul_assoc bound, ← Nat.mul_assoc numerator,
      Nat.mul_le_mul_right_iff (Nat.two_pow_pos _)]
    rfl

/-! ### The exponent of rounding -/

/--
A ratio is rounded at an exponent that leaves it at most 53 binary digits before
the point, and exactly as many unless the exponent is the least one.
-/
structure RoundedAt (numerator denominator : Nat) (exponent : Int) : Prop where
  least : leastExponent ≤ exponent
  below : numerator * 2 ^ places < 2 ^ 53 * (denominator * 2 ^ level exponent)
  filled : exponent = leastExponent ∨
    2 ^ 52 * (denominator * 2 ^ level exponent) ≤ numerator * 2 ^ places

theorem level_succ {exponent : Int} (least : leastExponent ≤ exponent) :
    level (exponent + 1) = level exponent + 1 := by
  unfold level leastExponent at *
  omega

theorem roundedAt_roundingExponent
    (nonzero : 0 < numerator)
    (positive : 0 < denominator) :
    RoundedAt numerator denominator (roundingExponent numerator denominator) := by
  have leastTop := Nat.log2_self_le (Nat.pos_iff_ne_zero.mp nonzero)
  have belowTop := Nat.lt_log2_self (n := numerator)
  have leastBottom := Nat.log2_self_le (Nat.pos_iff_ne_zero.mp positive)
  have belowBottom := Nat.lt_log2_self (n := denominator)
  rw [roundingExponent]
  generalize numerator.log2 = top at *
  generalize denominator.log2 = bottom at *
  generalize lowEq : max leastExponent ((top : Int) - (bottom : Int) - 53) = low
  have least : leastExponent ≤ low := by omega
  have levelEq : (level low : Int) = low + places := by
    unfold level leastExponent places at *
    omega
  have carried : 2 ^ 53 ≤ (descale numerator denominator low).1 /
        (descale numerator denominator low).2 ↔ _ :=
    le_descale_iff positive least (2 ^ 53)
  split
  · rename_i more
    rw [Nat.pow_eq, carried] at more
    refine ⟨by omega, ?_, .inr ?_⟩
    · calc numerator * 2 ^ places
          < 2 ^ (top + 1) * 2 ^ places := Nat.mul_lt_mul_of_pos_right belowTop (Nat.two_pow_pos _)
        _ = 2 ^ (top + 1 + places) := (Nat.pow_add ..).symm
        _ ≤ 2 ^ (53 + (bottom + (level low + 1))) :=
            Nat.pow_le_pow_right Nat.two_pos (by omega)
        _ = 2 ^ 53 * (2 ^ bottom * 2 ^ level (low + 1)) := by
            rw [level_succ least, Nat.pow_add, Nat.pow_add]
        _ ≤ 2 ^ 53 * (denominator * 2 ^ level (low + 1)) :=
            Nat.mul_le_mul_left _ (Nat.mul_le_mul_right _ leastBottom)
    · calc 2 ^ 52 * (denominator * 2 ^ level (low + 1))
          = 2 ^ 53 * (denominator * 2 ^ level low) := by rw [level_succ least]; ring
        _ ≤ numerator * 2 ^ places := more
  · rename_i less
    rw [Nat.pow_eq, carried] at less
    refine ⟨least, Nat.lt_of_not_le less, ?_⟩
    by_cases finest : low = leastExponent
    · exact .inl finest
    · refine .inr ?_
      calc 2 ^ 52 * (denominator * 2 ^ level low)
          ≤ 2 ^ 52 * (2 ^ (bottom + 1) * 2 ^ level low) :=
            Nat.mul_le_mul_left _ (Nat.mul_le_mul_right _ belowBottom.le)
        _ = 2 ^ (52 + (bottom + 1 + level low)) := by
            rw [Nat.pow_add 2 52, Nat.pow_add 2 (bottom + 1)]
        _ = 2 ^ (top + places) := congrArg (2 ^ ·) (by omega)
        _ = 2 ^ top * 2 ^ places := Nat.pow_add ..
        _ ≤ numerator * 2 ^ places := Nat.mul_le_mul_right _ leastTop

/-! ### The ratios that have a nearest number -/

/-- A quotient below `2 ^ 53` is rounded up to it from half a unit below. -/
theorem roundHalfEven_eq_carry_iff
    (below : numerator < 2 ^ 53 * denominator) :
    roundHalfEven numerator denominator = 2 ^ 53 ↔
      (2 ^ 54 - 1) * denominator ≤ 2 * numerator := by
  have positive : 0 < denominator := by omega
  have parts := Nat.div_add_mod numerator denominator
  have remainder := Nat.mod_lt numerator positive
  have quotientBelow : numerator / denominator < 2 ^ 53 :=
    (Nat.div_lt_iff_lt_mul positive).mpr below
  simp only [roundHalfEven]
  generalize numerator / denominator = quotient at *
  generalize numerator % denominator = rest at *
  subst parts
  by_cases greatest : quotient = 2 ^ 53 - 1
  · subst greatest
    -- The quotient is odd, so that the middle counts as above it.
    have odd : ¬(2 ^ 53 - 1) % 2 = 0 := by decide
    rw [if_neg odd]
    split_ifs <;> omega
  · have lower : denominator * quotient ≤ denominator * (2 ^ 53 - 2) :=
      Nat.mul_le_mul_left _ (by omega)
    split_ifs <;> omega

theorem overflow_pos : 0 < overflow :=
  Nat.mul_pos (by decide) (Nat.two_pow_pos _)

/-- The least ratio that is too large, in units of the least power of two. -/
theorem overflow_mul_le_iff :
    overflow * denominator ≤ numerator ↔
      (2 ^ 54 - 1) * (denominator * 2 ^ (halfUnit + places)) ≤ numerator * 2 ^ places := by
  have regrouped : (2 ^ 54 - 1) * (denominator * 2 ^ (halfUnit + places)) =
      overflow * denominator * 2 ^ places := by
    rw [overflow, Nat.pow_add, Nat.mul_right_comm _ (2 ^ halfUnit), Nat.mul_assoc,
      Nat.mul_assoc]
  rw [regrouped, Nat.mul_le_mul_right_iff (Nat.two_pow_pos _)]

theorem RoundedAt.level_eq
    {exponent : Int}
    (rounded : RoundedAt numerator denominator exponent) :
    (level exponent : Int) = exponent + places := by
  have := rounded.least
  unfold level leastExponent places at *
  omega

theorem RoundedAt.lt_overflow
    {exponent : Int}
    (rounded : RoundedAt numerator denominator exponent)
    (smaller : exponent < greatestExponent) :
    numerator < overflow * denominator := by
  have levelLe : level exponent ≤ halfUnit + places := by
    have := rounded.level_eq
    unfold halfUnit greatestExponent at *
    omega
  rw [← Nat.not_le, overflow_mul_le_iff, Nat.not_le]
  calc numerator * 2 ^ places
      < 2 ^ 53 * (denominator * 2 ^ level exponent) := rounded.below
    _ ≤ (2 ^ 54 - 1) * (denominator * 2 ^ (halfUnit + places)) :=
        Nat.mul_le_mul (by decide)
          (Nat.mul_le_mul_left _ (Nat.pow_le_pow_right Nat.two_pos levelLe))

theorem RoundedAt.overflow_le
    {exponent : Int}
    (rounded : RoundedAt numerator denominator exponent)
    (greater : greatestExponent < exponent) :
    overflow * denominator ≤ numerator := by
  have levelGe : halfUnit + places + 2 ≤ level exponent := by
    have := rounded.level_eq
    unfold halfUnit greatestExponent at *
    omega
  have notLeast : exponent ≠ leastExponent := by
    unfold leastExponent greatestExponent at *
    omega
  rw [overflow_mul_le_iff]
  generalize halfUnit + places = half at *
  calc (2 ^ 54 - 1) * (denominator * 2 ^ half)
      ≤ 2 ^ 54 * (denominator * 2 ^ half) := Nat.mul_le_mul_right _ (by decide)
    _ = 2 ^ 52 * (denominator * 2 ^ (half + 2)) := by ring
    _ ≤ 2 ^ 52 * (denominator * 2 ^ level exponent) :=
        Nat.mul_le_mul_left _
          (Nat.mul_le_mul_left _ (Nat.pow_le_pow_right Nat.two_pos levelGe))
    _ ≤ numerator * 2 ^ places := rounded.filled.resolve_left notLeast

/-- At the greatest exponent it is the carry that overflows. -/
theorem RoundedAt.carry_iff
    (rounded : RoundedAt numerator denominator greatestExponent) :
    roundHalfEven (descale numerator denominator greatestExponent).1
        (descale numerator denominator greatestExponent).2 = 2 ^ 53 ↔
      overflow * denominator ≤ numerator := by
  have scaled : descale numerator denominator greatestExponent =
      (numerator, 2 * (denominator * 2 ^ halfUnit)) := by
    rw [descale, if_pos (by decide), Nat.pow_eq,
      show greatestExponent.toNat = halfUnit + 1 from rfl]
    exact congrArg (numerator, ·) (by ring)
  have below : numerator < 2 ^ 53 * (2 * (denominator * 2 ^ halfUnit)) := by
    refine Nat.lt_of_mul_lt_mul_right (a := 2 ^ places) ?_
    calc numerator * 2 ^ places
        < 2 ^ 53 * (denominator * 2 ^ level greatestExponent) := rounded.below
      _ = 2 ^ 53 * (denominator * 2 ^ (halfUnit + 1 + places)) := by
          rw [show level greatestExponent = halfUnit + 1 + places from rfl]
      _ = 2 ^ 53 * (2 * (denominator * 2 ^ halfUnit)) * 2 ^ places := by ring
  have doubled : (2 ^ 54 - 1) * (2 * (denominator * 2 ^ halfUnit)) =
      2 * (overflow * denominator) := by
    rw [overflow]
    ring
  rw [scaled, roundHalfEven_eq_carry_iff below, doubled,
    Nat.mul_le_mul_left_iff Nat.two_pos]

/-- **Overflow.**  A ratio has a nearest number exactly if it is below `overflow`. -/
theorem exists_ofRatio?_iff
    {negative : Bool}
    (positive : 0 < denominator) :
    (∃ number, ofRatio? negative numerator denominator = some number) ↔
      numerator < overflow * denominator := by
  by_cases zeroCase : numerator = 0
  · subst zeroCase
    exact ⟨fun _ => Nat.mul_pos overflow_pos positive, fun _ => ⟨zero negative, rfl⟩⟩
  · have rounded := roundedAt_roundingExponent (Nat.pos_of_ne_zero zeroCase) positive
    simp only [ofRatio?, zeroCase, if_false, Option.ite_none_right_eq_some,
      Option.some.injEq, exists_and_left, exists_eq', and_true]
    generalize roundingExponent numerator denominator = exponent at *
    rcases lt_trichotomy exponent greatestExponent with smaller | rfl | greater
    · refine iff_of_true ?_ (rounded.lt_overflow smaller)
      split <;> simp only <;> omega
    · rw [← Nat.not_le, ← rounded.carry_iff]
      split <;> simp_all
    · refine iff_of_false ?_ (Nat.not_lt_of_le (rounded.overflow_le greater))
      split <;> simp only <;> omega

/-! ### The numbers of the format -/

/-- What the format holds: a significand of 53 binary digits and no greater exponent. -/
structure InFormat (number : Binary64) : Prop where
  significand_lt : number.significand < 2 ^ 53
  exponent_le : number.exponent ≤ greatestExponent

theorem roundHalfEven_le_of_lt
    {bound : Nat}
    (below : numerator / denominator < bound) :
    roundHalfEven numerator denominator ≤ bound := by
  simp only [roundHalfEven]
  split_ifs <;> omega

theorem inFormat_of_ofRatio?
    {negative : Bool}
    {number : Binary64}
    (positive : 0 < denominator)
    (found : ofRatio? negative numerator denominator = some number) :
    number.InFormat := by
  by_cases zeroCase : numerator = 0
  · simp only [ofRatio?, zeroCase, if_true, Option.some.injEq] at found
    subst found
    exact ⟨Nat.two_pow_pos 53, by simp [zero, leastExponent, greatestExponent]⟩
  · have rounded := roundedAt_roundingExponent (Nat.pos_of_ne_zero zeroCase) positive
    simp only [ofRatio?, zeroCase, if_false, Option.ite_none_right_eq_some,
      Option.some.injEq] at found
    generalize roundingExponent numerator denominator = exponent at *
    have atMost : roundHalfEven (descale numerator denominator exponent).1
        (descale numerator denominator exponent).2 ≤ 2 ^ 53 := by
      refine roundHalfEven_le_of_lt (Nat.lt_of_not_le ?_)
      rw [le_descale_iff positive rounded.least, Nat.not_le]
      exact rounded.below
    rcases found with ⟨exponentLe, rfl⟩
    refine ⟨?_, exponentLe⟩
    rw [Nat.pow_eq, Nat.pow_eq]
    split
    · exact (by decide : 2 ^ 52 < 2 ^ 53)
    · rename_i noCarry
      exact Nat.lt_of_le_of_ne atMost noCarry

/-- The numbers of the format are below the ratios that are too large. -/
theorem InFormat.ratio_lt
    {number : Binary64}
    (inFormat : number.InFormat) :
    number.ratio.1 < overflow * number.ratio.2 := by
  have significandLe : number.significand ≤ 2 ^ 53 - 1 :=
    Nat.le_pred_of_lt inFormat.significand_lt
  have exponentLe : number.exponent.toNat ≤ halfUnit + 1 := by
    have := inFormat.exponent_le
    unfold halfUnit greatestExponent at *
    omega
  rw [ratio]
  split
  · calc number.significand * 2 ^ number.exponent.toNat
        ≤ (2 ^ 53 - 1) * 2 ^ (halfUnit + 1) :=
          Nat.mul_le_mul significandLe (Nat.pow_le_pow_right Nat.two_pos exponentLe)
      _ = (2 ^ 54 - 2) * 2 ^ halfUnit := by ring
      _ < overflow := Nat.mul_lt_mul_of_pos_right (by decide) (Nat.two_pow_pos _)
      _ = overflow * 1 := (Nat.mul_one _).symm
  · calc number.significand
        < 2 ^ 54 - 1 := by omega
      _ ≤ overflow := Nat.le_mul_of_pos_right _ (Nat.two_pow_pos _)
      _ ≤ overflow * 2 ^ (-number.exponent).toNat :=
          Nat.le_mul_of_pos_right _ (Nat.two_pow_pos _)

theorem ratio_snd_pos (number : Binary64) : 0 < number.ratio.2 := by
  rw [ratio]
  split
  · exact Nat.one_pos
  · exact Nat.two_pow_pos _

/-- Dividing a number of the format by one that is at least one never overflows. -/
theorem InFormat.exists_div?
    {number divisor : Binary64}
    (inFormat : number.InFormat)
    (atLeastOne : divisor.ratio.2 ≤ divisor.ratio.1) :
    ∃ quotient, number.div? divisor = some quotient ∧ quotient.InFormat := by
  have positive : 0 < number.ratio.2 * divisor.ratio.1 :=
    Nat.mul_pos number.ratio_snd_pos (divisor.ratio_snd_pos.trans_le atLeastOne)
  have below : number.ratio.1 * divisor.ratio.2 <
      overflow * (number.ratio.2 * divisor.ratio.1) :=
    calc number.ratio.1 * divisor.ratio.2
        < overflow * number.ratio.2 * divisor.ratio.2 :=
          Nat.mul_lt_mul_of_pos_right inFormat.ratio_lt divisor.ratio_snd_pos
      _ ≤ overflow * number.ratio.2 * divisor.ratio.1 := Nat.mul_le_mul_left _ atLeastOne
      _ = overflow * (number.ratio.2 * divisor.ratio.1) := Nat.mul_assoc ..
  have found : ∃ quotient, number.div? divisor = some quotient :=
    (exists_ofRatio?_iff positive).mpr below
  rcases found with ⟨quotient, found⟩
  exact ⟨quotient, found, inFormat_of_ofRatio? positive found⟩

/-- A product overflows exactly if the exact product does. -/
theorem exists_mul?_iff {left right : Binary64} :
    (∃ product, left.mul? right = some product) ↔
      left.ratio.1 * right.ratio.1 < overflow * (left.ratio.2 * right.ratio.2) :=
  exists_ofRatio?_iff (Nat.mul_pos left.ratio_snd_pos right.ratio_snd_pos)

/-! ### Natural numbers -/

theorem exists_ofNat?_iff {number : Nat} :
    (∃ nearest, ofNat? number = some nearest) ↔ number < overflow := by
  rw [ofNat?, exists_ofRatio?_iff Nat.one_pos, Nat.mul_one]

theorem div_le_roundHalfEven :
    numerator / denominator ≤ roundHalfEven numerator denominator := by
  simp only [roundHalfEven]
  split_ifs <;> omega

theorem one_le_ratio_iff {number : Binary64} :
    number.ratio.2 ≤ number.ratio.1 ↔
      2 ^ (-number.exponent).toNat ≤ number.significand := by
  rw [ratio]
  split
  · rename_i upwards
    rw [show (-number.exponent).toNat = 0 by omega, Nat.pow_zero]
    exact Nat.mul_pos_iff_of_pos_right (Nat.two_pow_pos _)
  · rfl

theorem isZero_eq_false_of_one_le
    {number : Binary64}
    (atLeastOne : number.ratio.2 ≤ number.ratio.1) :
    number.isZero = false := by
  have positive : 0 < number.significand :=
    (Nat.two_pow_pos _).trans_le (one_le_ratio_iff.mp atLeastOne)
  exact beq_false_of_ne (Nat.ne_of_gt positive)

/-- The nearest number to a positive natural number is at least one. -/
theorem one_le_of_ofNat?
    {number : Nat}
    {nearest : Binary64}
    (nonzero : 0 < number)
    (found : ofNat? number = some nearest) :
    nearest.ratio.2 ≤ nearest.ratio.1 := by
  have rounded := roundedAt_roundingExponent nonzero Nat.one_pos
  simp only [ofNat?, ofRatio?, Nat.ne_of_gt nonzero, if_false, Option.ite_none_right_eq_some,
    Option.some.injEq] at found
  generalize roundingExponent number 1 = exponent at *
  rcases found with ⟨-, rfl⟩
  have atLeast : 2 ^ (-exponent).toNat ≤
      roundHalfEven (descale number 1 exponent).1 (descale number 1 exponent).2 := by
    refine le_trans ?_ div_le_roundHalfEven
    rw [le_descale_iff Nat.one_pos rounded.least, Nat.one_mul, ← Nat.pow_add]
    have levelEq := rounded.level_eq
    by_cases upwards : 0 ≤ exponent
    · have notLeast : exponent ≠ leastExponent := by
        unfold leastExponent
        omega
      rw [show (-exponent).toNat = 0 by omega, Nat.zero_add]
      calc 2 ^ level exponent
          ≤ 2 ^ 52 * (1 * 2 ^ level exponent) := by omega
        _ ≤ number * 2 ^ places := rounded.filled.resolve_left notLeast
    · rw [show (-exponent).toNat + level exponent = places by omega]
      exact Nat.le_mul_of_pos_left _ nonzero
  rw [one_le_ratio_iff, Nat.pow_eq, Nat.pow_eq]
  split
  · rename_i carry
    rw [carry, Nat.pow_le_pow_iff_right (by decide)] at atLeast
    exact Nat.pow_le_pow_right Nat.two_pos (by simp only; omega)
  · exact atLeast

end Concordance.Binary64
