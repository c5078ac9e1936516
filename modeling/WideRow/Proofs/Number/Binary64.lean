import WideRow.Value.Basic

/-!
# When doubles are numbers

Rounding a quotient never gives a pattern that is not a number.  Powers of ten with a natural exponent are
at least one, infinity included, and integers of 128 bits are finite; so the double near a decimal of
any scale that occurs is a number (`isNaN_toDouble`).
-/

namespace WideRow

namespace Binary64

/-! ### Sign and magnitude -/

theorem magnitude_ofMagnitude {negative : Bool} {magnitude : Nat} (small : magnitude < signWeight) :
    (ofMagnitude negative magnitude).magnitude = magnitude := by
  rw [ofMagnitude, dif_pos small]
  cases negative with
  | true =>
    show (signWeight + magnitude) % signWeight = magnitude
    rw [Nat.add_mod_left, Nat.mod_eq_of_lt small]
  | false => exact Nat.mod_eq_of_lt small

theorem negative_ofMagnitude {negative : Bool} {magnitude : Nat} (small : magnitude < signWeight) :
    (ofMagnitude negative magnitude).negative = negative := by
  rw [ofMagnitude, dif_pos small]
  cases negative with
  | true => exact decide_eq_true (Nat.le_add_right signWeight magnitude)
  | false => exact decide_eq_false (Nat.not_le_of_lt small)

theorem infinityMagnitude_lt : infinityMagnitude < signWeight := by decide

theorem isNaN_eq_false {x : Binary64} : x.isNaN = false ↔ x.magnitude ≤ infinityMagnitude := by
  rw [isNaN, decide_eq_false_iff_not, Nat.not_lt]

/-! ### Rounded quotients -/

theorem ratioMagnitude_le (numerator denominator : Nat) :
    ratioMagnitude numerator denominator ≤ infinityMagnitude := by
  simp only [ratioMagnitude]
  split
  · exact Nat.zero_le _
  · exact Nat.min_le_right _ _

theorem magnitude_ofRatio (negative : Bool) (numerator denominator : Nat) :
    (ofRatio negative numerator denominator).magnitude = ratioMagnitude numerator denominator :=
  magnitude_ofMagnitude (Nat.lt_of_le_of_lt (ratioMagnitude_le _ _) infinityMagnitude_lt)

theorem isNaN_ofRatio (negative : Bool) (numerator denominator : Nat) :
    (ofRatio negative numerator denominator).isNaN = false := by
  rw [isNaN_eq_false, magnitude_ofRatio]
  exact ratioMagnitude_le _ _

theorem div_le_nearestEven (numerator denominator : Nat) :
    numerator / denominator ≤ nearestEven numerator denominator := by
  simp only [nearestEven]
  split
  · exact Nat.le_refl _
  · split
    · exact Nat.le_succ _
    · exact Nat.le_add_right _ _

theorem nearestEven_le (numerator denominator : Nat) :
    nearestEven numerator denominator ≤ numerator / denominator + 1 := by
  simp only [nearestEven]
  split
  · exact Nat.le_succ _
  · split
    · exact Nat.le_refl _
    · omega

theorem unitsInOne_pos : 0 < unitsInOne := by
  unfold unitsInOne
  generalize 1074 = k
  exact Nat.two_pow_pos k

/-! ### Doubles that are at least one -/

/-- The magnitude of one. -/
def oneMagnitude : Nat := 1023 * fractionSize

theorem binaryExponent_nonneg {numerator denominator : Nat} (positive : 0 < denominator)
    (least : denominator ≤ numerator) : 0 ≤ binaryExponent numerator denominator := by
  have logs : denominator.log2 ≤ numerator.log2 := by
    rw [Nat.le_log2 (by omega)]
    exact Nat.le_trans (Nat.log2_self_le (by omega)) least
  simp only [binaryExponent]
  split
  · omega
  · rename_i short
    by_cases level : numerator.log2 = denominator.log2
    · -- at equal logarithms the guess is zero, and one is reached
      rw [level, Int.sub_self] at short
      rw [reaches, if_pos (Int.le_refl 0)] at short
      refine absurd (decide_eq_true ?_) short
      show denominator * 1 ≤ numerator
      rw [Nat.mul_one]
      exact least
    · omega

theorem one_le_ratioMagnitude {numerator denominator : Nat} (positive : 0 < denominator)
    (least : denominator ≤ numerator) : oneMagnitude ≤ ratioMagnitude numerator denominator := by
  have exponent := binaryExponent_nonneg positive least
  have nonzero : numerator ≠ 0 := by omega
  rw [ratioMagnitude, if_neg nonzero]
  simp only
  refine Nat.le_min.mpr ⟨?_, by decide⟩
  by_cases unit : binaryExponent numerator denominator = 0
  · have spacing : max ((0 : Int) - 52) (-1074) = -52 := by decide
    have steps : ((-52 : Int) + 1074).toNat = 1022 := by decide
    have places : (-(-52 : Int)).toNat = 52 := by decide
    rw [unit, spacing, steps, places, if_neg (by decide)]
    unfold oneMagnitude
    have whole : fractionSize ≤ numerator * Nat.pow 2 52 / denominator := by
      rw [Nat.le_div_iff_mul_le positive, Nat.mul_comm]
      exact Nat.mul_le_mul_right _ least
    have rounded := div_le_nearestEven (numerator * Nat.pow 2 52) denominator
    omega
  · have steps : 1023 ≤
        (max (binaryExponent numerator denominator - 52) (-1074) + 1074).toNat := by
      omega
    exact Nat.le_trans (Nat.mul_le_mul_right fractionSize steps) (Nat.le_add_right _ _)

/-- A positive number that is one or more, infinity included. -/
structure AtLeastOne (x : Binary64) : Prop where
  positive : x.negative = false
  least : oneMagnitude ≤ x.magnitude
  most : x.magnitude ≤ infinityMagnitude

theorem AtLeastOne.isNaN {x : Binary64} (large : AtLeastOne x) : x.isNaN = false :=
  isNaN_eq_false.mpr large.most

theorem AtLeastOne.isZero {x : Binary64} (large : AtLeastOne x) : x.isZero = false := by
  have least := large.least
  unfold Binary64.isZero
  refine decide_eq_false ?_
  intro zero
  rw [zero] at least
  exact absurd least (by decide)

theorem AtLeastOne.unitsInOne_le {x : Binary64} (large : AtLeastOne x) : unitsInOne ≤ x.units := by
  have field : 1023 ≤ x.exponentField := by
    rw [exponentField, Nat.le_div_iff_mul_le (by decide)]
    exact large.least
  have leading : Nat.pow 2 52 ≤ x.significand := by
    rw [significand, if_neg (by omega)]
    exact Nat.le_add_left _ _
  have power : unitsInOne ≤ Nat.pow 2 (52 + x.scaleIndex) := by
    have index : 1074 ≤ 52 + (x.exponentField - 1) := by omega
    unfold unitsInOne scaleIndex
    generalize 1074 = k at index ⊢
    exact Nat.pow_le_pow_right (by decide) index
  have split : Nat.pow 2 (52 + x.scaleIndex) = Nat.pow 2 52 * Nat.pow 2 x.scaleIndex :=
    Nat.pow_add 2 52 x.scaleIndex
  rw [split] at power
  exact Nat.le_trans power (Nat.mul_le_mul_right _ leading)

theorem atLeastOne_ofRatio {numerator denominator : Nat} (positive : 0 < denominator)
    (least : denominator ≤ numerator) : AtLeastOne (ofRatio false numerator denominator) where
  positive := negative_ofMagnitude
    (Nat.lt_of_le_of_lt (ratioMagnitude_le _ _) infinityMagnitude_lt)
  least := by
    rw [magnitude_ofRatio]
    exact one_le_ratioMagnitude positive least
  most := by
    rw [magnitude_ofRatio]
    exact ratioMagnitude_le _ _

theorem atLeastOne_infinity : AtLeastOne (infinity false) where
  positive := by decide
  least := by decide
  most := by decide

theorem atLeastOne_multiply {x y : Binary64} (left : AtLeastOne x) (right : AtLeastOne y) :
    AtLeastOne (multiply x y) := by
  have sign : (x.negative != y.negative) = false := by
    rw [left.positive, right.positive]
    rfl
  unfold multiply
  simp only [left.isNaN, right.isNaN, left.isZero, right.isZero, sign, Bool.or_false,
    Bool.false_eq_true, if_false]
  split
  · exact atLeastOne_infinity
  · refine atLeastOne_ofRatio (Nat.mul_pos unitsInOne_pos unitsInOne_pos) ?_
    exact Nat.mul_le_mul left.unitsInOne_le right.unitsInOne_le

theorem atLeastOne_powerFrom {result base : Binary64} {exponent : Nat}
    (first : AtLeastOne result) (second : AtLeastOne base) :
    AtLeastOne (powerFrom result base exponent) := by
  induction exponent using Nat.strongRecOn generalizing result base with
  | _ exponent ih =>
    have product : AtLeastOne (if exponent % 2 = 1 then multiply result base else result) := by
      split
      · exact atLeastOne_multiply first second
      · exact first
    unfold powerFrom
    simp only
    split
    · exact product
    · exact ih (exponent / 2) (by omega) product (atLeastOne_multiply second second)

theorem atLeastOne_tenTo {exponent : Int} (natural : 0 ≤ exponent) : AtLeastOne (tenTo exponent) := by
  have power : AtLeastOne (powerFrom one ten exponent.natAbs) :=
    atLeastOne_powerFrom ⟨by decide, by decide, by decide⟩ ⟨by decide, by decide, by decide⟩
  rw [tenTo, if_neg (Int.not_lt.mpr natural)]
  exact power

/-! ### Integers are finite -/

theorem binaryExponent_one {n : Nat} (nonzero : n ≠ 0) : binaryExponent n 1 = n.log2 := by
  have reached : reaches n 1 (n.log2 : Int) = true := by
    rw [reaches, if_pos (Int.natCast_nonneg _)]
    refine decide_eq_true ?_
    rw [Nat.one_mul, Int.toNat_natCast]
    exact Nat.log2_self_le nonzero
  have guess : (n.log2 : Int) - (Nat.log2 1 : Nat) = n.log2 := by
    rw [show Nat.log2 1 = 0 by decide]
    exact Int.sub_zero _
  simp only [binaryExponent, guess, reached, if_true]

theorem ratioMagnitude_one_lt {n : Nat} (small : n < 2 * Signed.half 128) :
    ratioMagnitude n 1 < infinityMagnitude := by
  by_cases zero : n = 0
  · rw [zero]
    decide
  rw [Signed.half_oneTwentyEight] at small
  have power : n < 2 ^ 128 := by omega
  have bits : n.log2 < 128 := (Nat.log2_lt zero).mpr power
  have above : n < 2 ^ (n.log2 + 1) := Nat.lt_log2_self
  have spacing : max ((n.log2 : Int) - 52) (-1074) = (n.log2 : Int) - 52 := by omega
  rw [ratioMagnitude, if_neg zero, binaryExponent_one zero, spacing]
  simp only
  have steps : ((n.log2 : Int) - 52 + 1074).toNat ≤ 1149 := by omega
  have room := Nat.mul_le_mul_right fractionSize steps
  suffices rounded : (if 0 ≤ (n.log2 : Int) - 52 then
      nearestEven n (1 * Nat.pow 2 ((n.log2 : Int) - 52).toNat)
      else nearestEven (n * Nat.pow 2 (-((n.log2 : Int) - 52)).toNat) 1) ≤ 2 ^ 53 by
    have total : 1149 * fractionSize + 2 ^ 53 < infinityMagnitude := by decide
    omega
  split
  · -- the last bits are rounded off
    rename_i long
    have whole : n / Nat.pow 2 ((n.log2 : Int) - 52).toNat < 2 ^ 53 := by
      show n / 2 ^ ((n.log2 : Int) - 52).toNat < 2 ^ 53
      rw [Nat.div_lt_iff_lt_mul (Nat.two_pow_pos _), ← Nat.pow_add]
      have index : 53 + ((n.log2 : Int) - 52).toNat = n.log2 + 1 := by omega
      rw [index]
      exact above
    have rounded := nearestEven_le n (1 * Nat.pow 2 ((n.log2 : Int) - 52).toNat)
    rw [Nat.one_mul] at rounded ⊢
    omega
  · have shifted : n * Nat.pow 2 (-((n.log2 : Int) - 52)).toNat < 2 ^ 53 := by
      have index : 2 ^ 53 = 2 ^ (n.log2 + 1) * 2 ^ (-((n.log2 : Int) - 52)).toNat := by
        rw [← Nat.pow_add]
        congr 1
        omega
      rw [index]
      exact Nat.mul_lt_mul_of_pos_right above (Nat.two_pow_pos _)
    have rounded := nearestEven_le (n * Nat.pow 2 (-((n.log2 : Int) - 52)).toNat) 1
    rw [Nat.div_one] at rounded
    omega

theorem isNaN_ofInt (n : Int) : (ofInt n).isNaN = false := isNaN_ofRatio _ _ _

theorem isInfinite_ofInt {n : Int} (small : n.natAbs < 2 * Signed.half 128) :
    (ofInt n).isInfinite = false := by
  have magnitude := magnitude_ofRatio (decide (n < 0)) n.natAbs 1
  have finite := ratioMagnitude_one_lt small
  rw [isInfinite, ofInt, magnitude]
  exact decide_eq_false (Nat.ne_of_lt finite)

/-- A finite number over one that is at least one is a number. -/
theorem isNaN_divide {x y : Binary64} (number : x.isNaN = false) (finite : x.isInfinite = false)
    (large : AtLeastOne y) : (divide x y).isNaN = false := by
  unfold divide
  simp only [number, finite, large.isNaN, large.isZero, Bool.or_false, Bool.false_eq_true, if_false]
  split
  · rw [isNaN_eq_false, magnitude_ofMagnitude (by decide)]
    exact Nat.zero_le _
  · exact isNaN_ofRatio _ _ _

end Binary64

namespace Decimal

/-- A scale in the lower half of its range stands for the power of ten. -/
theorem scaleFactor_eq {scale : Nat} (small : scale < 2147483648) :
    scaleFactor scale = Binary64.tenTo scale := by
  have exponent : (Signed.wrap 32 (scale : Int)).val = scale := by
    simp only [Signed.wrap, Signed.ofOffset, Signed.half_thirtyTwo]
    omega
  rw [scaleFactor, exponent]

theorem atLeastOne_scaleFactor {scale : Nat} (small : scale < 2147483648) :
    Binary64.AtLeastOne (scaleFactor scale) := by
  rw [scaleFactor_eq small]
  exact Binary64.atLeastOne_tenTo (Int.natCast_nonneg scale)

theorem isInfinite_ofInt (unscaled : Unscaled) :
    (Binary64.ofInt unscaled.val).isInfinite = false := by
  have low := unscaled.low
  have high := unscaled.high
  apply Binary64.isInfinite_ofInt
  rw [Signed.half_oneTwentyEight] at low high ⊢
  omega

theorem isNaN_toDouble (unscaled : Unscaled) {scale : Nat} (small : scale < 2147483648) :
    (toDouble unscaled scale).isNaN = false :=
  Binary64.isNaN_divide (Binary64.isNaN_ofInt _) (isInfinite_ofInt unscaled)
    (atLeastOne_scaleFactor small)

end Decimal

end WideRow
