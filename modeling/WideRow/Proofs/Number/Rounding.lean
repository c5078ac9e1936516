import Mathlib.Algebra.Order.Field.Power
import Mathlib.Order.Monotone.Basic
import WideRow.Proofs.Number.Binary64
import WideRow.Proofs.Number.Rational

/-!
# Doubles as rational numbers

A double that is a number stands for a rational number, an infinity for the one that would follow the
largest.  Doubles are ordered like these numbers (`Binary64.compare?_eq`).

Rounding a quotient in the normal range is off by at most one part in `2 ^ 53`
(`Binary64.abs_ratioValue_sub_le`).  The double near a decimal is rounded three times, for its integer, its
power of ten and their quotient, and is off by at most one part in `2 ^ 51`
(`Decimal.abs_toDouble_sub_le`).
-/

namespace WideRow

namespace Binary64

/-! ### Order -/

/-- The multiple of the least positive double that a magnitude stands for. -/
def unitsOf (magnitude : Nat) : Nat :=
  if magnitude / fractionSize = 0 then magnitude % fractionSize
  else (magnitude % fractionSize + fractionSize) * 2 ^ (magnitude / fractionSize - 1)

theorem units_eq (x : Binary64) : x.units = unitsOf x.magnitude := by
  unfold units unitsOf significand scaleIndex
  show (if x.magnitude / fractionSize = 0 then x.magnitude % fractionSize else
    x.magnitude % fractionSize + fractionSize) * 2 ^ (x.magnitude / fractionSize - 1) = _
  split
  · rename_i low
    rw [low]
    exact Nat.mul_one _
  · rfl

/-- A magnitude is a number of whole steps of the exponent and a significand, which may be the one that
the next step starts with. -/
theorem unitsOf_steps {steps significand : Nat} (most : significand ≤ 2 * fractionSize)
    (normal : steps = 0 ∨ fractionSize ≤ significand) :
    unitsOf (steps * fractionSize + significand) = significand * 2 ^ steps := by
  have positive : 0 < fractionSize := by decide
  unfold unitsOf
  rcases Nat.lt_or_ge significand fractionSize with below | least
  · obtain rfl : steps = 0 := by omega
    rw [Nat.zero_mul, Nat.zero_add, Nat.div_eq_of_lt below, Nat.mod_eq_of_lt below]
    simp
  rcases Nat.lt_or_ge significand (2 * fractionSize) with proper | full
  · have split : steps * fractionSize + significand =
        significand - fractionSize + fractionSize * (steps + 1) := by
      rw [Nat.mul_succ, Nat.mul_comm]
      omega
    rw [split, Nat.add_mul_div_left _ _ positive, Nat.add_mul_mod_self_left,
      Nat.div_eq_of_lt (by omega), Nat.mod_eq_of_lt (by omega), if_neg (by omega),
      Nat.sub_add_cancel least, Nat.zero_add, Nat.add_sub_cancel]
  · have split : steps * fractionSize + significand = fractionSize * (steps + 2) := by
      rw [Nat.mul_add, Nat.mul_comm]
      omega
    rw [split, Nat.mul_div_cancel_left _ positive, Nat.mul_mod_right, if_neg (by omega)]
    have double : significand = fractionSize * 2 := by omega
    rw [double, Nat.zero_add, Nat.mul_assoc, ← Nat.pow_succ']
    rfl

theorem strictMono_unitsOf : StrictMono unitsOf := by
  apply strictMono_nat_of_lt_succ
  intro magnitude
  have positive : 0 < fractionSize := by decide
  obtain ⟨steps, significand, split, proper, normal⟩ :
      ∃ steps significand, magnitude = steps * fractionSize + significand ∧
        significand < 2 * fractionSize ∧ (steps = 0 ∨ fractionSize ≤ significand) := by
    by_cases low : magnitude < 2 * fractionSize
    · exact ⟨0, magnitude, by omega, low, .inl rfl⟩
    · have room := Nat.mod_lt magnitude positive
      have whole := Nat.div_add_mod' magnitude fractionSize
      have least : 2 ≤ magnitude / fractionSize := by
        rw [Nat.le_div_iff_mul_le positive]
        omega
      refine ⟨magnitude / fractionSize - 1, magnitude % fractionSize + fractionSize, ?_, by omega,
        .inr (by omega)⟩
      rw [Nat.sub_mul]
      have step := Nat.mul_le_mul_right fractionSize least
      omega
  rw [split, Nat.add_assoc, unitsOf_steps (by omega) normal, unitsOf_steps (by omega) (by omega)]
  exact Nat.mul_lt_mul_of_pos_right (Nat.lt_succ_self _) (Nat.two_pow_pos steps)

/-- Positions are ordered like the numbers at them. -/
theorem compare_key (x y : Binary64) :
    compare x.key y.key = compare x.signedUnits y.signedUnits := by
  have order : ∀ {m n : Nat}, unitsOf m < unitsOf n ↔ m < n := strictMono_unitsOf.lt_iff_lt
  have zero : ∀ {m : Nat}, 0 < unitsOf m ↔ 0 < m := order (m := 0)
  have below : ∀ x y : Binary64, x.key < y.key ↔ x.signedUnits < y.signedUnits := by
    intro x y
    unfold key signedUnits
    rw [units_eq, units_eq]
    have forward := order (m := x.magnitude) (n := y.magnitude)
    have backward := order (m := y.magnitude) (n := x.magnitude)
    have left := zero (m := x.magnitude)
    have right := zero (m := y.magnitude)
    split <;> split <;> omega
  exact compare_int_congr (below x y) (below y x)

/-- The number that a double stands for. -/
def toRat (x : Binary64) : ℚ := x.signedUnits / unitsInOne

theorem unitsInOne_rat_pos : (0 : ℚ) < unitsInOne := by exact_mod_cast unitsInOne_pos

/-- Doubles that are numbers are ordered like the numbers that they stand for. -/
theorem compare?_eq {x y : Binary64} (left : x.isNaN = false) (right : y.isNaN = false) :
    x.compare? y = some (compare x.toRat y.toRat) := by
  rw [compare?, left, right, Bool.or_false, if_neg Bool.false_ne_true, compare_key]
  exact congrArg some (compare_fractions _ _ unitsInOne_rat_pos).symm

/-! ### Rounded quotients -/

/-- Rounding a quotient moves it by at most a half. -/
theorem abs_nearestEven_sub_le (n : Nat) {d : Nat} (positive : 0 < d) :
    |(nearestEven n d : ℚ) - n / d| ≤ 1 / 2 := by
  have whole := Nat.div_add_mod' n d
  have rest := Nat.mod_lt n positive
  have up : (n / d + 1) * d = n / d * d + d := Nat.succ_mul _ _
  have near : 2 * ((nearestEven n d * d : Nat) - n : Int).natAbs ≤ d := by
    simp only [nearestEven]
    split
    · omega
    · split
      · omega
      · rcases Nat.mod_two_eq_zero_or_one (n / d) with even | odd
        · rw [even, Nat.add_zero]
          omega
        · rw [odd]
          omega
  have divisor : (0 : ℚ) < d := by exact_mod_cast positive
  have scaled : (nearestEven n d : ℚ) - n / d = (nearestEven n d * d - n) / d := by
    field_simp
  have bound : 2 * |(nearestEven n d : ℚ) * d - n| ≤ d := by
    have cast : ((2 * ((nearestEven n d * d : Nat) - n : Int).natAbs : Nat) : ℚ) ≤ d := by
      exact_mod_cast near
    rw [Nat.cast_mul, Nat.cast_natAbs] at cast
    push_cast at cast
    exact cast
  rw [scaled, abs_div, abs_of_pos divisor, div_le_div_iff₀ divisor two_pos]
  linarith

theorem cast_two_pow (k : Nat) : ((Nat.pow 2 k : Nat) : ℚ) = 2 ^ (k : ℤ) := by
  rw [zpow_natCast]
  exact Nat.cast_pow 2 k

theorem cast_two_pow_toNat {power : Int} (natural : 0 ≤ power) :
    ((Nat.pow 2 power.toNat : Nat) : ℚ) = 2 ^ power := by
  rw [cast_two_pow, Int.toNat_of_nonneg natural]

theorem reaches_iff {n d : Nat} (positive : 0 < d) (power : Int) :
    reaches n d power = true ↔ (2 : ℚ) ^ power ≤ n / d := by
  have divisor : (0 : ℚ) < d := by exact_mod_cast positive
  rw [le_div_iff₀ divisor, reaches]
  split
  · rename_i natural
    rw [decide_eq_true_iff, ← cast_two_pow_toNat natural, mul_comm, ← Nat.cast_mul, Nat.cast_le]
  · rename_i negative
    have room : (0 : ℚ) < 2 ^ (-power) := zpow_pos two_pos _
    rw [decide_eq_true_iff, ← neg_neg power, zpow_neg, inv_mul_le_iff₀ room, neg_neg, mul_comm,
      ← cast_two_pow_toNat (by omega), ← Nat.cast_mul, Nat.cast_le]

/-- The binary exponent is the one of the largest power of two that the quotient reaches. -/
theorem binaryExponent_bounds {n d : Nat} (dividend : 0 < n) (divisor : 0 < d) :
    (2 : ℚ) ^ binaryExponent n d ≤ n / d ∧ (n : ℚ) / d < 2 ^ (binaryExponent n d + 1) := by
  have positive : (0 : ℚ) < d := by exact_mod_cast divisor
  have least : (2 : ℚ) ^ (n.log2 : Int) ≤ n := by
    rw [zpow_natCast]
    exact_mod_cast Nat.log2_self_le dividend.ne'
  have most : (n : ℚ) < 2 ^ ((n.log2 : Int) + 1) := by
    rw [← Nat.cast_succ, zpow_natCast]
    exact_mod_cast Nat.lt_log2_self
  have least' : (2 : ℚ) ^ (d.log2 : Int) ≤ d := by
    rw [zpow_natCast]
    exact_mod_cast Nat.log2_self_le divisor.ne'
  have most' : (d : ℚ) < 2 ^ ((d.log2 : Int) + 1) := by
    rw [← Nat.cast_succ, zpow_natCast]
    exact_mod_cast Nat.lt_log2_self
  simp only [binaryExponent]
  split
  · rename_i reached
    refine ⟨(reaches_iff divisor _).mp reached, ?_⟩
    rw [div_lt_iff₀ positive]
    calc (n : ℚ) < 2 ^ ((n.log2 : Int) + 1) := most
      _ = 2 ^ ((n.log2 : Int) - d.log2 + 1) * 2 ^ (d.log2 : Int) := by
        rw [← zpow_add₀ two_ne_zero]
        congr 1
        omega
      _ ≤ 2 ^ ((n.log2 : Int) - d.log2 + 1) * d := by gcongr
  · rename_i short
    rw [reaches_iff divisor, not_le] at short
    refine ⟨?_, by rwa [sub_add_cancel]⟩
    rw [le_div_iff₀ positive]
    calc (2 : ℚ) ^ ((n.log2 : Int) - d.log2 - 1) * d
        ≤ 2 ^ ((n.log2 : Int) - d.log2 - 1) * 2 ^ ((d.log2 : Int) + 1) := by gcongr
      _ = 2 ^ (n.log2 : Int) := by
        rw [← zpow_add₀ two_ne_zero]
        congr 1
        omega
      _ ≤ n := least

/-- A quotient at which doubles have all their digits. -/
structure Normal (q : ℚ) : Prop where
  least : (2 : ℚ) ^ (-1022 : ℤ) ≤ q
  most : q < (2 : ℚ) ^ (1023 : ℤ)

theorem normal_of_near_one {q : ℚ} (least : (2 : ℚ) ^ (-200 : ℤ) ≤ q)
    (most : q ≤ (2 : ℚ) ^ (200 : ℤ)) : Normal q where
  least := le_trans (zpow_le_zpow_right₀ one_le_two (by decide)) least
  most := lt_of_le_of_lt most (zpow_lt_zpow_right₀ one_lt_two (by decide))

/-- A quotient counted in steps of `2 ^ spacing`, as rounding does it. -/
theorem nearestEven_scaled (n : Nat) {d : Nat} (positive : 0 < d) (spacing : Int) :
    ∃ numerator denominator : Nat, 0 < denominator ∧
      (numerator : ℚ) / denominator = n / d / 2 ^ spacing ∧
      (if 0 ≤ spacing then nearestEven n (d * Nat.pow 2 spacing.toNat)
        else nearestEven (n * Nat.pow 2 (-spacing).toNat) d) = nearestEven numerator denominator := by
  split
  · rename_i natural
    refine ⟨n, d * Nat.pow 2 spacing.toNat, Nat.mul_pos positive (Nat.two_pow_pos _), ?_, rfl⟩
    rw [Nat.cast_mul, cast_two_pow_toNat natural, div_div]
  · rename_i negative
    refine ⟨n * Nat.pow 2 (-spacing).toNat, d, positive, ?_, rfl⟩
    rw [Nat.cast_mul, cast_two_pow_toNat (by omega), zpow_neg, ← div_eq_mul_inv, div_right_comm]

theorem binaryExponent_of_normal {n d : Nat} (dividend : 0 < n) (divisor : 0 < d)
    (normal : Normal (n / d)) : -1022 ≤ binaryExponent n d ∧ binaryExponent n d ≤ 1022 := by
  obtain ⟨reached, short⟩ := binaryExponent_bounds dividend divisor
  have low : (2 : ℚ) ^ (-1022 : ℤ) < 2 ^ (binaryExponent n d + 1) :=
    lt_of_le_of_lt normal.least short
  have high : (2 : ℚ) ^ binaryExponent n d < 2 ^ (1023 : ℤ) := lt_of_le_of_lt reached normal.most
  rw [zpow_lt_zpow_iff_right₀ one_lt_two] at low high
  omega

/-- In the normal range a quotient is rounded to a whole significand. -/
theorem ratioMagnitude_of_normal {n d : Nat} (dividend : 0 < n) (divisor : 0 < d)
    (normal : Normal (n / d)) :
    ∃ significand, fractionSize ≤ significand ∧ significand ≤ 2 * fractionSize ∧
      ratioMagnitude n d = (binaryExponent n d + 1022).toNat * fractionSize + significand ∧
      |(significand : ℚ) - n / d / 2 ^ (binaryExponent n d - 52)| ≤ 1 / 2 := by
  obtain ⟨low, high⟩ := binaryExponent_of_normal dividend divisor normal
  obtain ⟨reached, short⟩ := binaryExponent_bounds dividend divisor
  have spacing : max (binaryExponent n d - 52) (-1074) = binaryExponent n d - 52 := by omega
  obtain ⟨numerator, denominator, positive, same, rounded⟩ :=
    nearestEven_scaled n divisor (binaryExponent n d - 52)
  have room : (0 : ℚ) < denominator := by exact_mod_cast positive
  have step : (0 : ℚ) < 2 ^ (binaryExponent n d - 52) := zpow_pos two_pos _
  have least : fractionSize ≤ numerator / denominator := by
    rw [Nat.le_div_iff_mul_le positive]
    have scaled : (2 : ℚ) ^ (52 : ℤ) ≤ numerator / denominator := by
      rw [same, le_div_iff₀ step, ← zpow_add₀ two_ne_zero, add_sub_cancel]
      exact reached
    rw [le_div_iff₀ room] at scaled
    have size : (2 : ℚ) ^ (52 : ℤ) = fractionSize := by norm_num [fractionSize]
    rw [size] at scaled
    exact_mod_cast scaled
  have most : numerator / denominator < 2 * fractionSize := by
    rw [Nat.div_lt_iff_lt_mul positive]
    have scaled : (numerator : ℚ) / denominator < 2 ^ (53 : ℤ) := by
      rw [same, div_lt_iff₀ step, ← zpow_add₀ two_ne_zero]
      have exponent : (53 : ℤ) + (binaryExponent n d - 52) = binaryExponent n d + 1 := by omega
      rw [exponent]
      exact short
    rw [div_lt_iff₀ room] at scaled
    have size : (2 : ℚ) ^ (53 : ℤ) = (2 * fractionSize : Nat) := by norm_num [fractionSize]
    rw [size] at scaled
    exact_mod_cast scaled
  have below := div_le_nearestEven numerator denominator
  have above := nearestEven_le numerator denominator
  refine ⟨nearestEven numerator denominator, by omega, by omega, ?_, ?_⟩
  · have steps : binaryExponent n d - 52 + 1074 = binaryExponent n d + 1022 := by omega
    rw [ratioMagnitude, if_neg dividend.ne', spacing]
    simp only [rounded, steps]
    apply Nat.min_eq_left
    -- even the largest exponent with a full significand is below infinity
    have room : (binaryExponent n d + 1022).toNat * fractionSize ≤ 2044 * fractionSize :=
      Nat.mul_le_mul_right _ (by omega)
    have total : 2044 * fractionSize + 2 * fractionSize ≤ infinityMagnitude := by decide
    omega
  · rw [← same]
    exact abs_nearestEven_sub_le numerator positive

/-- The number that a quotient is rounded to. -/
def ratioValue (n d : Nat) : ℚ := unitsOf (ratioMagnitude n d) / unitsInOne

theorem unitsInOne_eq : (unitsInOne : ℚ) = 2 ^ ((1074 : ℕ) : ℤ) := by
  unfold unitsInOne
  generalize 1074 = k
  exact cast_two_pow k

/-- Rounding a quotient in the normal range is off by at most one part in `2 ^ 53`. -/
theorem abs_ratioValue_sub_le {n d : Nat} (dividend : 0 < n) (divisor : 0 < d)
    (normal : Normal (n / d)) :
    |ratioValue n d - n / d| ≤ 2 ^ (-53 : ℤ) * (n / d) := by
  obtain ⟨low, _⟩ := binaryExponent_of_normal dividend divisor normal
  obtain ⟨reached, _⟩ := binaryExponent_bounds dividend divisor
  obtain ⟨significand, least, most, magnitude, near⟩ :=
    ratioMagnitude_of_normal dividend divisor normal
  have step : (0 : ℚ) < 2 ^ (binaryExponent n d - 52) := zpow_pos two_pos _
  have value : ratioValue n d = significand * 2 ^ (binaryExponent n d - 52) := by
    have exponent : binaryExponent n d - 52 =
        ((binaryExponent n d + 1022).toNat : ℤ) - ((1074 : ℕ) : ℤ) := by omega
    have power : ((2 ^ (binaryExponent n d + 1022).toNat : Nat) : ℚ) = _ := cast_two_pow _
    rw [ratioValue, magnitude, unitsOf_steps most (.inr least), unitsInOne_eq, exponent,
      zpow_sub₀ two_ne_zero, Nat.cast_mul, power, mul_div_assoc]
  calc |ratioValue n d - n / d|
      = |(significand : ℚ) - n / d / 2 ^ (binaryExponent n d - 52)| *
          2 ^ (binaryExponent n d - 52) := by
        rw [value, ← abs_of_pos step, ← abs_mul, abs_of_pos step, sub_mul,
          div_mul_cancel₀ _ step.ne']
    _ ≤ 1 / 2 * 2 ^ (binaryExponent n d - 52) := by gcongr
    _ = 2 ^ (-53 : ℤ) * 2 ^ binaryExponent n d := by
        rw [← zpow_add₀ two_ne_zero, one_div, ← zpow_neg_one, ← zpow_add₀ two_ne_zero]
        congr 1
        omega
    _ ≤ 2 ^ (-53 : ℤ) * (n / d) := by gcongr

/-! ### Signs -/

/-- The absolute value that a double stands for. -/
def size (x : Binary64) : ℚ := x.units / unitsInOne

theorem toRat_eq (x : Binary64) : x.toRat = if x.negative then -x.size else x.size := by
  unfold toRat signedUnits size
  split
  · rw [Int.cast_neg, Int.cast_natCast, neg_div]
  · rw [Int.cast_natCast]

theorem size_ofRatio (negative : Bool) (n d : Nat) :
    (ofRatio negative n d).size = ratioValue n d := by
  rw [size, units_eq, magnitude_ofRatio, ratioValue]

theorem negative_ofRatio (negative : Bool) (n d : Nat) :
    (ofRatio negative n d).negative = negative :=
  negative_ofMagnitude (Nat.lt_of_le_of_lt (ratioMagnitude_le _ _) infinityMagnitude_lt)

theorem ratioValue_zero (d : Nat) : ratioValue 0 d = 0 := by
  have zero : unitsOf 0 = 0 := by decide
  rw [ratioValue, ratioMagnitude, if_pos rfl, zero, Nat.cast_zero, zero_div]

/-- A quotient of doubles is the rounded quotient of their units. -/
theorem divide_eq {x y : Binary64} (number : x.isNaN = false) (finite : x.isInfinite = false)
    (large : AtLeastOne y) (finite' : y.isInfinite = false) :
    divide x y = ofRatio x.negative x.units y.units := by
  unfold divide
  simp only [number, finite, finite', large.isNaN, large.isZero, large.positive, Bool.or_false,
    Bool.false_eq_true, if_false, Bool.bne_false]

/-! ### Powers of ten -/

/-- The power by a fixed number of squarings. -/
def powerWithin : Nat → Binary64 → Binary64 → Nat → Binary64
  | 0, result, _, _ => result
  | squarings + 1, result, base, exponent =>
    powerWithin squarings (if exponent % 2 = 1 then multiply result base else result)
      (multiply base base) (exponent / 2)

theorem powerWithin_zero (squarings : Nat) (result base : Binary64) :
    powerWithin squarings result base 0 = result := by
  induction squarings generalizing base with
  | zero => rfl
  | succ squarings ih => exact ih (multiply base base)

theorem powerFrom_eq {squarings exponent : Nat} (small : exponent < 2 ^ (squarings + 1))
    (result base : Binary64) :
    powerFrom result base exponent = powerWithin (squarings + 1) result base exponent := by
  induction squarings generalizing exponent result base with
  | zero =>
    have done : exponent / 2 = 0 := by omega
    rw [powerFrom, powerWithin, powerWithin]
    simp only [done, if_true]
  | succ squarings ih =>
    have half : exponent / 2 < 2 ^ (squarings + 1) := by
      rw [Nat.pow_succ] at small
      omega
    rw [powerFrom, powerWithin]
    split
    · rename_i done
      rw [done, powerWithin_zero]
    · exact ih half _ _

/-- The powers of ten that a scale stands for are finite and off by at most one part in `2 ^ 53`. -/
theorem tenTo_table : ∀ k < 39,
    (powerWithin 6 one ten k).isInfinite = false ∧
      2 ^ 53 * ((powerWithin 6 one ten k).units - (Decimal.tenTo k * unitsInOne : Nat) : Int).natAbs ≤
        Decimal.tenTo k * unitsInOne := by
  decide +kernel

end Binary64

namespace Decimal

open Binary64

theorem scaleFactor_eq_powerWithin {scale : Nat} (few : scale ≤ maxDigits) :
    scaleFactor scale = powerWithin 6 one ten scale := by
  have few : scale ≤ 38 := few
  rw [scaleFactor_eq (by omega), Binary64.tenTo, if_neg (Int.not_lt.mpr (Int.natCast_nonneg _)),
    Int.natAbs_natCast]
  exact powerFrom_eq (by omega) one ten

theorem isInfinite_scaleFactor {scale : Nat} (few : scale ≤ maxDigits) :
    (scaleFactor scale).isInfinite = false := by
  rw [scaleFactor_eq_powerWithin few]
  exact (tenTo_table scale (Nat.lt_succ_of_le few)).1

theorem abs_scaleFactor_sub_le {scale : Nat} (few : scale ≤ maxDigits) :
    |(scaleFactor scale).size - tenTo scale| ≤ 2 ^ (-53 : ℤ) * tenTo scale := by
  have near := (tenTo_table scale (Nat.lt_succ_of_le few)).2
  have unit := unitsInOne_rat_pos
  rw [← scaleFactor_eq_powerWithin few] at near
  have cast : (2 : ℚ) ^ 53 * |((scaleFactor scale).units : ℚ) - tenTo scale * unitsInOne| ≤
      tenTo scale * unitsInOne := by
    have cast := (Nat.cast_le (α := ℚ)).mpr near
    rw [Nat.cast_mul, Nat.cast_natAbs] at cast
    push_cast at cast
    exact cast
  have scaled : (scaleFactor scale).size - tenTo scale =
      ((scaleFactor scale).units - tenTo scale * unitsInOne) / unitsInOne := by
    rw [size, sub_div, mul_div_cancel_right₀ _ unit.ne']
  rw [scaled, abs_div, abs_of_pos unit, div_le_iff₀ unit, zpow_neg, inv_mul_eq_div,
    div_mul_eq_mul_div, le_div_iff₀ (by positivity), mul_comm]
  exact cast

/-! ### Decimals -/

/-- A quotient whose parts were rounded before it was. -/
theorem abs_quotient_sub_le {n d n' d' q : ℚ} (dividend : 0 < n) (divisor : 0 < d)
    (first : |n' - n| ≤ 2 ^ (-53 : ℤ) * n) (second : |d' - d| ≤ 2 ^ (-53 : ℤ) * d)
    (last : |q - n' / d'| ≤ 2 ^ (-53 : ℤ) * (n' / d')) :
    |q - n / d| ≤ 2 ^ (-51 : ℤ) * (n / d) := by
  norm_num only [zpow_neg, zpow_ofNat] at first second last ⊢
  rw [abs_le] at first second last ⊢
  have positive : 0 < d' := by linarith
  have exact_ : 0 < n / d := div_pos dividend divisor
  have scaled : n / d * d = n := div_mul_cancel₀ n divisor.ne'
  have high : n / d * d' ≤ (1 + 1 / 9007199254740992) * n := by nlinarith
  have low : (1 - 1 / 9007199254740992) * n ≤ n / d * d' := by nlinarith
  have upper : n' / d' ≤ (1 + 5 / 2 / 9007199254740992) * (n / d) := by
    rw [div_le_iff₀ positive]
    linarith
  have lower : (1 - 5 / 2 / 9007199254740992) * (n / d) ≤ n' / d' := by
    rw [le_div_iff₀ positive]
    linarith
  constructor <;> linarith

/-- The double near an integer of 128 bits is off by at most one part in `2 ^ 53`. -/
theorem abs_ofInt_sub_le (unscaled : Unscaled) (nonzero : unscaled.val ≠ 0) :
    |(ofInt unscaled.val).size - unscaled.val.natAbs| ≤
      2 ^ (-53 : ℤ) * unscaled.val.natAbs := by
  have low := unscaled.low
  have high := unscaled.high
  rw [Signed.half_oneTwentyEight] at low high
  have positive : 0 < unscaled.val.natAbs := Int.natAbs_pos.mpr nonzero
  have least : (1 : ℚ) ≤ unscaled.val.natAbs := by exact_mod_cast positive
  have most : (unscaled.val.natAbs : ℚ) ≤ 2 ^ 127 := by
    have most : unscaled.val.natAbs ≤ 2 ^ 127 := by omega
    exact_mod_cast most
  have normal : Normal (unscaled.val.natAbs / (1 : Nat)) := by
    rw [Nat.cast_one, div_one]
    apply normal_of_near_one
    · exact le_trans (by norm_num) least
    · exact le_trans most (by norm_num)
  have near := abs_ratioValue_sub_le positive Nat.one_pos normal
  rw [Nat.cast_one, div_one] at near
  rw [ofInt, size_ofRatio]
  exact near

theorem size_bounds {x : ℚ} {n : Nat} (near : |x - n| ≤ 2 ^ (-53 : ℤ) * n) (positive : 0 < n)
    (small : n ≤ 2 ^ 127) : 2 ^ (-1 : ℤ) ≤ x ∧ x ≤ 2 ^ (128 : ℤ) := by
  have least : (1 : ℚ) ≤ n := by exact_mod_cast positive
  have most : (n : ℚ) ≤ 2 ^ 127 := by exact_mod_cast small
  norm_num only [zpow_neg, zpow_ofNat, abs_le] at near most ⊢
  constructor <;> linarith

/-- The double near a decimal has the sign of its integer and the size of a rounded quotient. -/
theorem toDouble_eq (unscaled : Unscaled) {scale : Nat} (few : scale ≤ maxDigits) :
    toDouble unscaled scale = ofRatio (decide (unscaled.val < 0)) (ofInt unscaled.val).units
      (scaleFactor scale).units := by
  have few' : scale ≤ 38 := few
  rw [toDouble, divide_eq (isNaN_ofInt _) (isInfinite_ofInt unscaled)
    (atLeastOne_scaleFactor (by omega)) (isInfinite_scaleFactor few), ofInt, negative_ofRatio]

/-- The size of the double near a decimal is off by at most one part in `2 ^ 51`. -/
theorem abs_size_sub_le (unscaled : Unscaled) {scale : Nat} (few : scale ≤ maxDigits)
    (nonzero : unscaled.val ≠ 0) :
    |(toDouble unscaled scale).size - unscaled.val.natAbs / tenTo scale| ≤
      2 ^ (-51 : ℤ) * (unscaled.val.natAbs / tenTo scale) := by
  have low := unscaled.low
  have high := unscaled.high
  rw [Signed.half_oneTwentyEight] at low high
  have first := abs_ofInt_sub_le unscaled nonzero
  have second := abs_scaleFactor_sub_le few
  have dividend : 0 < unscaled.val.natAbs := Int.natAbs_pos.mpr nonzero
  have room : tenTo scale ≤ 2 ^ 127 := le_trans (tenTo_le_tenTo few) (by decide)
  obtain ⟨least, most⟩ := size_bounds first dividend (by omega)
  obtain ⟨least', most'⟩ := size_bounds second (tenTo_pos scale) room
  have unit := unitsInOne_rat_pos
  have half : (0 : ℚ) < 2 ^ (-1 : ℤ) := zpow_pos two_pos _
  have counted : ∀ x : Binary64, 0 < x.size → 0 < x.units := by
    intro x positive
    rw [size, div_pos_iff_of_pos_right unit] at positive
    exact_mod_cast positive
  have quotient : ((ofInt unscaled.val).units : ℚ) / (scaleFactor scale).units =
      (ofInt unscaled.val).size / (scaleFactor scale).size :=
    (div_div_div_cancel_right₀ unit.ne' _ _).symm
  have normal : Normal ((ofInt unscaled.val).units / (scaleFactor scale).units) := by
    have positive : 0 < (scaleFactor scale).size := lt_of_lt_of_le half least'
    rw [quotient]
    apply normal_of_near_one
    · rw [le_div_iff₀ positive]
      norm_num only [zpow_neg, zpow_ofNat] at least most' ⊢
      linarith
    · rw [div_le_iff₀ positive]
      norm_num only [zpow_neg, zpow_ofNat] at most least' ⊢
      linarith
  have last := abs_ratioValue_sub_le (counted _ (lt_of_lt_of_le half least))
    (counted _ (lt_of_lt_of_le half least')) normal
  rw [quotient] at last
  rw [toDouble_eq unscaled few, size_ofRatio]
  exact abs_quotient_sub_le (by exact_mod_cast dividend) (by exact_mod_cast tenTo_pos scale) first
    second last

/-- The double near a decimal is off by at most one part in `2 ^ 51`. -/
theorem abs_toDouble_sub_le (unscaled : Unscaled) {scale : Nat} (few : scale ≤ maxDigits) :
    |(toDouble unscaled scale).toRat - toRat unscaled scale| ≤
      2 ^ (-51 : ℤ) * |toRat unscaled scale| := by
  have sign : (toDouble unscaled scale).negative = decide (unscaled.val < 0) := by
    rw [toDouble_eq unscaled few, negative_ofRatio]
  have positive : (0 : ℚ) < tenTo scale := by exact_mod_cast tenTo_pos scale
  by_cases zero : unscaled.val = 0
  · have nothing : (ofInt unscaled.val).units = 0 := by
      rw [zero]
      decide
    have same : toRat unscaled scale = 0 := toRat_eq_zero.mpr zero
    rw [toRat_eq, sign, zero, toDouble_eq unscaled few, size_ofRatio, nothing, ratioValue_zero, same]
    simp
  have near := abs_size_sub_le unscaled few zero
  rw [toRat_eq, sign, toRat, abs_div, abs_of_pos positive, ← Int.cast_abs, Int.abs_eq_natAbs,
    Int.cast_natCast]
  rcases Int.lt_or_gt_of_ne zero with negative | natural
  · have magnitude : (unscaled.val : ℚ) = -(unscaled.val.natAbs : ℚ) := by
      rw [← Int.cast_natCast, Int.ofNat_natAbs_of_nonpos (by omega), Int.cast_neg, neg_neg]
    rw [decide_eq_true negative, if_pos rfl, magnitude, neg_div, neg_sub_neg, abs_sub_comm]
    exact near
  · have magnitude : (unscaled.val : ℚ) = (unscaled.val.natAbs : ℚ) := by
      rw [← Int.cast_natCast, Int.natAbs_of_nonneg (by omega)]
    rw [decide_eq_false (by omega), if_neg Bool.false_ne_true, magnitude]
    exact near

end Decimal

end WideRow
