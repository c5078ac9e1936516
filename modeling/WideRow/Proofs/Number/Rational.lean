import Mathlib.Data.Rat.Floor
import Mathlib.Order.Compare
import Mathlib.Tactic.FieldSimp
import Mathlib.Tactic.Linarith
import Mathlib.Tactic.LinearCombination
import WideRow.Proofs.Bytes.Order
import WideRow.Proofs.Number.Decimal

/-!
# Decimals as rational numbers

A decimal stands for a rational number.  `roundAway` is the nearest integer of a rational number, a half
going away from zero.

* `nearestQuotient_eq_roundAway`: a rounded quotient is the rounded rational quotient.
* `rescale?_rounded`: a change of scale rounds once.
* `natAbs_nearestQuotient_le`: rounding does not lead beyond the dividend.
-/

namespace WideRow

/-- Fractions of one positive denominator are ordered like their numerators. -/
theorem compare_fractions (m n : Int) {d : ℚ} (positive : 0 < d) :
    compare ((m : ℚ) / d) (n / d) = compare m n := by
  have below : ∀ m n : Int, (m : ℚ) / d < n / d ↔ m < n := by
    intro m n
    rw [div_lt_div_iff_of_pos_right positive, Int.cast_lt]
  apply ordering_ext
  · rw [compare_lt_iff_lt, Int.compare_eq_lt]
    exact below m n
  · rw [compare_gt_iff_gt, Int.compare_eq_gt]
    exact below n m

namespace Decimal

/-- The number that an unscaled integer stands for at a scale. -/
def toRat (unscaled : Unscaled) (scale : Nat) : ℚ := unscaled.val / tenTo scale

theorem toRat_eq_zero {unscaled : Unscaled} {scale : Nat} :
    toRat unscaled scale = 0 ↔ unscaled.val = 0 := by
  have positive : (tenTo scale : ℚ) ≠ 0 := by exact_mod_cast (tenTo_pos scale).ne'
  rw [toRat, div_eq_zero_iff, or_iff_left positive, Int.cast_eq_zero]

/-- Decimals at one scale are ordered like their integers. -/
theorem compare_toRat (a b : Unscaled) (scale : Nat) :
    compare (toRat a scale) (toRat b scale) = compare a.val b.val :=
  compare_fractions a.val b.val (by exact_mod_cast tenTo_pos scale)

/-- The nearest integer, a half going away from zero. -/
def roundAway (x : ℚ) : ℤ := if 0 ≤ x then ⌊x + 1 / 2⌋ else -⌊-x + 1 / 2⌋

/-! ### Decimals that fit -/

theorem digits_le_iff {unscaled : Unscaled} {k : Nat} :
    digits unscaled ≤ k ↔ 0 < k ∧ unscaled.val.natAbs < tenTo k := by
  have counted : 0 < digits unscaled := digitCount_pos _
  constructor
  · intro few
    have positive : 0 < k := by omega
    exact ⟨positive, (digitCount_le_iff positive).mp few⟩
  · intro ⟨positive, small⟩
    exact (digitCount_le_iff positive).mpr small

/-- An integer of as many digits as are allowed fits 128 bits. -/
theorem ofInt?_of_natAbs_lt {n : Int} {k : Nat} (few : k ≤ maxDigits) (small : n.natAbs < tenTo k) :
    ∃ unscaled : Unscaled, Signed.ofInt? 128 n = some unscaled ∧ unscaled.val = n := by
  have room : tenTo maxDigits < Signed.half 128 := by decide
  have below := tenTo_le_tenTo few
  have fits : -(Signed.half 128 : Int) ≤ n ∧ n < (Signed.half 128 : Int) := by omega
  exact ⟨⟨n, fits.1, fits.2⟩, dif_pos fits, rfl⟩

theorem toRat_mul_tenTo_of_le (value : Unscaled) {source target : Nat} (le : source ≤ target) :
    toRat value source * tenTo target = value.val * tenTo (target - source) := by
  have positive : (tenTo source : ℚ) ≠ 0 := by exact_mod_cast (tenTo_pos source).ne'
  have split : (tenTo target : ℚ) = tenTo source * tenTo (target - source) := by
    rw [← Nat.cast_mul, ← tenTo_add, Nat.add_sub_cancel' le]
  rw [toRat, split]
  field_simp

theorem toRat_mul_tenTo_of_ge (value : Unscaled) {source target : Nat} (ge : target ≤ source) :
    toRat value source * tenTo target = value.val / tenTo (source - target) := by
  have positive : (tenTo target : ℚ) ≠ 0 := by exact_mod_cast (tenTo_pos target).ne'
  have split : (tenTo source : ℚ) = tenTo target * tenTo (source - target) := by
    rw [← Nat.cast_mul, ← tenTo_add, Nat.add_sub_cancel' ge]
  rw [toRat, split]
  field_simp

/-- Adding digits does not change the number. -/
theorem toRat_of_rescale? {value result : Unscaled} {source target : Nat} (le : source ≤ target)
    (rescaled : rescale? value source target = some result) :
    toRat result target = toRat value source := by
  have same := ((rescale?_eq_some_of_le le).mp rescaled).2
  have positive : (tenTo target : ℚ) ≠ 0 := by exact_mod_cast (tenTo_pos target).ne'
  rw [toRat, div_eq_iff positive, toRat_mul_tenTo_of_le value le, same]
  push_cast
  rfl

/-- Digits are added without loss as long as there is room for them. -/
theorem rescale?_of_natAbs_lt {value : Unscaled} {source target k : Nat} (le : source ≤ target)
    (few : k + (target - source) ≤ maxDigits) (small : value.val.natAbs < tenTo k) :
    ∃ result, rescale? value source target = some result ∧
      result.val.natAbs < tenTo (k + (target - source)) ∧
      toRat result target = toRat value source := by
  have scaled : (value.val * tenTo (target - source)).natAbs < tenTo (k + (target - source)) := by
    rw [Int.natAbs_mul, Int.natAbs_natCast, tenTo_add]
    exact Nat.mul_lt_mul_of_pos_right small (tenTo_pos _)
  obtain ⟨result, _, same⟩ := ofInt?_of_natAbs_lt few scaled
  have rescaled : rescale? value source target = some result :=
    (rescale?_eq_some_of_le le).mpr ⟨by omega, same⟩
  exact ⟨result, rescaled, by rw [same]; exact scaled, toRat_of_rescale? le rescaled⟩

/-! ### Rounding -/

theorem roundAway_intCast (n : ℤ) : roundAway n = n := by
  unfold roundAway
  have half : ⌊(1 : ℚ) / 2⌋ = 0 := by norm_num
  by_cases positive : (0 : ℚ) ≤ n
  · rw [if_pos positive, Int.floor_intCast_add, half, add_zero]
  · rw [if_neg positive, ← Int.cast_neg, Int.floor_intCast_add, half, add_zero, neg_neg]

theorem roundAway_neg (x : ℚ) : roundAway (-x) = -roundAway x := by
  unfold roundAway
  rcases lt_trichotomy x 0 with negative | zero | positive
  · rw [if_pos (by linarith), if_neg (by linarith), neg_neg]
  · rw [zero, neg_zero, if_pos le_rfl]
    norm_num
  · rw [if_neg (by linarith), if_pos (by linarith), neg_neg]

theorem nearestQuotient_neg_left {d : Int} (n : Int) (divisor : d ≠ 0) :
    nearestQuotient (-n) d = -nearestQuotient n d := by
  simp only [nearestQuotient, Int.neg_tdiv, Int.neg_tmod, Int.natAbs_neg, decide_eq_decide]
  split_ifs <;> omega

theorem nearestQuotient_neg_right {d : Int} (n : Int) (divisor : d ≠ 0) :
    nearestQuotient n (-d) = -nearestQuotient n d := by
  simp only [nearestQuotient, Int.tdiv_neg, Int.tmod_neg, Int.natAbs_neg, decide_eq_decide]
  split_ifs <;> omega

theorem nearestQuotient_of_nonneg {n d : Int} (dividend : 0 ≤ n) (divisor : 0 < d) :
    nearestQuotient n d = if d ≤ 2 * (n % d) then n / d + 1 else n / d := by
  have least := Int.emod_nonneg n (Int.ne_of_gt divisor)
  simp only [nearestQuotient, Int.tdiv_eq_ediv_of_nonneg dividend,
    Int.tmod_eq_emod_of_nonneg dividend, decide_eq_decide]
  split_ifs <;> omega

theorem roundAway_of_nonneg {n d : Int} (dividend : 0 ≤ n) (divisor : 0 < d) :
    roundAway ((n : ℚ) / d) = if d ≤ 2 * (n % d) then n / d + 1 else n / d := by
  have positive : (0 : ℚ) < d := by exact_mod_cast divisor
  have numerator : (0 : ℚ) ≤ n := by exact_mod_cast dividend
  have split : (n : ℚ) / d = (n / d : ℤ) + (n % d : ℤ) / d := by
    have whole : (n : ℚ) = d * (n / d : ℤ) + (n % d : ℤ) := by
      exact_mod_cast (Int.mul_ediv_add_emod n d).symm
    field_simp
    linarith
  have least : (0 : ℚ) ≤ (n % d : ℤ) := by exact_mod_cast Int.emod_nonneg n (Int.ne_of_gt divisor)
  have below : ((n % d : ℤ) : ℚ) < d := by exact_mod_cast Int.emod_lt_of_pos n divisor
  have fraction : (0 : ℚ) ≤ (n % d : ℤ) / d := div_nonneg least positive.le
  have proper : ((n % d : ℤ) : ℚ) / d < 1 := (div_lt_one positive).mpr below
  rw [roundAway, if_pos (div_nonneg numerator positive.le), split]
  by_cases half : d ≤ 2 * (n % d)
  · have half' : (d : ℚ) ≤ 2 * (n % d : ℤ) := by exact_mod_cast half
    have large : (1 : ℚ) / 2 ≤ (n % d : ℤ) / d := by
      rw [div_le_div_iff₀ two_pos positive]
      linarith
    rw [if_pos half, Int.floor_eq_iff]
    push_cast
    constructor <;> linarith
  · have half' : 2 * ((n % d : ℤ) : ℚ) < d := by exact_mod_cast not_le.mp half
    have small : ((n % d : ℤ) : ℚ) / d < 1 / 2 := by
      rw [div_lt_div_iff₀ positive two_pos]
      linarith
    rw [if_neg half, Int.floor_eq_iff]
    constructor <;> linarith

theorem nearestQuotient_eq_roundAway_of_pos (n : Int) {d : Int} (divisor : 0 < d) :
    nearestQuotient n d = roundAway ((n : ℚ) / d) := by
  rcases Int.le_total 0 n with dividend | dividend
  · rw [nearestQuotient_of_nonneg dividend divisor, roundAway_of_nonneg dividend divisor]
  · have mirrored : nearestQuotient (-n) d = roundAway ((-n : ℤ) / d) := by
      have dividend : 0 ≤ -n := by omega
      rw [nearestQuotient_of_nonneg dividend divisor, roundAway_of_nonneg dividend divisor]
    rw [nearestQuotient_neg_left n divisor.ne'] at mirrored
    rw [Int.cast_neg, neg_div, roundAway_neg] at mirrored
    exact neg_inj.mp mirrored

/-- A rounded quotient is the rational quotient, rounded. -/
theorem nearestQuotient_eq_roundAway (n : Int) {d : Int} (divisor : d ≠ 0) :
    nearestQuotient n d = roundAway ((n : ℚ) / d) := by
  rcases Int.lt_or_gt_of_ne divisor with negative | positive
  · have mirrored := nearestQuotient_eq_roundAway_of_pos n (Int.neg_pos_of_neg negative)
    rw [nearestQuotient_neg_right n divisor, Int.cast_neg, div_neg, roundAway_neg] at mirrored
    exact neg_inj.mp mirrored
  · exact nearestQuotient_eq_roundAway_of_pos n positive

/-- A change of scale rounds the number once, and not at all if digits are added. -/
theorem rescale?_rounded {value result : Unscaled} {source target : Nat}
    (rescaled : rescale? value source target = some result) :
    result.val = roundAway (toRat value source * tenTo target) := by
  rcases Nat.lt_or_ge target source with lt | le
  · have divisor : (tenTo (source - target) : ℤ) ≠ 0 := by exact_mod_cast (tenTo_pos _).ne'
    rw [((rescale?_eq_some_of_lt lt).mp rescaled).2, nearestQuotient_eq_roundAway _ divisor,
      toRat_mul_tenTo_of_ge value (Nat.le_of_lt lt), Int.cast_natCast]
  · rw [((rescale?_eq_some_of_le le).mp rescaled).2, toRat_mul_tenTo_of_le value le]
    exact_mod_cast (roundAway_intCast _).symm

/-- Rounding does not lead beyond the dividend. -/
theorem natAbs_nearestQuotient_le (n : Int) {d : Int} (divisor : d ≠ 0) :
    (nearestQuotient n d).natAbs ≤ n.natAbs := by
  have whole : (n.tdiv d).natAbs = n.natAbs / d.natAbs := Int.natAbs_tdiv n d
  have rest : (n.tmod d).natAbs = n.natAbs % d.natAbs := Int.natAbs_tmod n d
  have split := Nat.div_add_mod n.natAbs d.natAbs
  have scaled : n.natAbs / d.natAbs ≤ d.natAbs * (n.natAbs / d.natAbs) :=
    Nat.le_mul_of_pos_left _ (Int.natAbs_pos.mpr divisor)
  rw [← rest] at split
  simp only [nearestQuotient]
  split_ifs <;> omega

/-! ### Quotients -/

theorem shiftFactor?_natCast {k : Nat} (near : k < 4294967296) :
    shiftFactor? (k : Int) = tenTo? k := by
  have whole : ((k : Int) % 4294967296).toNat = k := by omega
  rw [shiftFactor?, whole]

/-- The operands of a division fit after one of them has been scaled up: the dividend by the places that
the quotient has beyond it, or the divisor by those that the dividend has too many. -/
structure Alignable (left : Unscaled) (leftScale : Nat) (right : Unscaled) (rightScale target : Nat) :
    Prop where
  dividendPlaces : target + rightScale - leftScale ≤ maxDigits
  dividend : Signed.InRange 128 (left.val * tenTo (target + rightScale - leftScale))
  divisorPlaces : leftScale - (target + rightScale) ≤ maxDigits
  divisor : Signed.InRange 128 (right.val * tenTo (leftScale - (target + rightScale)))

section Quotient

variable {left right : Unscaled} {leftScale rightScale target : Nat}

/-- Operands that are aligned are both scaled up, one of them by no places. -/
theorem alignForDivision?_eq_some
    (near : ((target : Int) + rightScale - leftScale).natAbs < 4294967296)
    {numerator denominator : Unscaled} :
    alignForDivision? left leftScale right rightScale target = some (numerator, denominator) ↔
      Alignable left leftScale right rightScale target ∧
        numerator.val = left.val * tenTo (target + rightScale - leftScale) ∧
        denominator.val = right.val * tenTo (leftScale - (target + rightScale)) := by
  have unscaled : ∀ n : Int, n * tenTo 0 = n := fun n => Int.mul_one n
  simp only [alignForDivision?, Option.bind_eq_bind]
  by_cases up : leftScale ≤ target + rightScale
  · have shift : (target : Int) + rightScale - leftScale =
        (target + rightScale - leftScale : Nat) := by omega
    have level : leftScale - (target + rightScale) = 0 := by omega
    rw [shift, if_pos (Int.natCast_nonneg _), shiftFactor?_natCast (by omega)]
    simp only [Option.bind_eq_some_iff, tenTo?_eq_some, Signed.ofInt?_eq_some, Option.some.injEq,
      Prod.mk.injEq]
    constructor
    · rintro ⟨_, ⟨few, rfl⟩, _, same, rfl, rfl⟩
      refine ⟨⟨few, same ▸ Signed.inRange_val _, ?_, ?_⟩, same, ?_⟩
      · rw [level]
        exact Nat.zero_le _
      · rw [level, unscaled]
        exact Signed.inRange_val _
      · rw [level, unscaled]
    · intro ⟨fits, same, other⟩
      rw [level, unscaled] at other
      exact ⟨_, ⟨fits.dividendPlaces, rfl⟩, numerator, same, rfl, Signed.eq_of_val other.symm⟩
  · have shift : -((target : Int) + rightScale - leftScale) =
        (leftScale - (target + rightScale) : Nat) := by omega
    have level : target + rightScale - leftScale = 0 := by omega
    rw [if_neg (by omega), shift, shiftFactor?_natCast (by omega)]
    simp only [Option.bind_eq_some_iff, tenTo?_eq_some, Signed.ofInt?_eq_some, Option.some.injEq,
      Prod.mk.injEq]
    constructor
    · rintro ⟨_, ⟨few, rfl⟩, _, same, rfl, rfl⟩
      refine ⟨⟨?_, ?_, few, same ▸ Signed.inRange_val _⟩, ?_, same⟩
      · rw [level]
        exact Nat.zero_le _
      · rw [level, unscaled]
        exact Signed.inRange_val _
      · rw [level, unscaled]
    · intro ⟨fits, other, same⟩
      rw [level, unscaled] at other
      exact ⟨_, ⟨fits.divisorPlaces, rfl⟩, denominator, same, Signed.eq_of_val other.symm, rfl⟩

/-- The quotient of two decimals, in units of the last place of the result. -/
def exactQuotient (left : Unscaled) (leftScale : Nat) (right : Unscaled) (rightScale target : Nat) :
    ℚ :=
  toRat left leftScale / toRat right rightScale * tenTo target

/-- Scaling the operands up does not change their quotient. -/
theorem aligned_quotient (left right : Unscaled) (leftScale rightScale target : Nat)
    (nonzero : right.val ≠ 0) :
    ((left.val * tenTo (target + rightScale - leftScale) : Int) : ℚ) /
        (right.val * tenTo (leftScale - (target + rightScale)) : Int) =
      exactQuotient left leftScale right rightScale target := by
  have places : target + rightScale - leftScale + leftScale =
      leftScale - (target + rightScale) + (target + rightScale) := by omega
  have powers : (tenTo (target + rightScale - leftScale) : ℚ) * tenTo leftScale =
      tenTo (leftScale - (target + rightScale)) * (tenTo target * tenTo rightScale) := by
    rw [← Nat.cast_mul, ← Nat.cast_mul, ← Nat.cast_mul, ← tenTo_add, ← tenTo_add, ← tenTo_add, places]
  have positive : ∀ k, (tenTo k : ℚ) ≠ 0 := fun k => by exact_mod_cast (tenTo_pos k).ne'
  have leftPositive := positive leftScale
  have rightPositive := positive rightScale
  have shiftPositive := positive (leftScale - (target + rightScale))
  have divisor : (right.val : ℚ) ≠ 0 := by exact_mod_cast nonzero
  rw [exactQuotient, toRat, toRat]
  push_cast
  field_simp
  linear_combination (left.val : ℚ) * powers

theorem divide_eq_divisionByZero :
    divide left leftScale right rightScale target = .error .divisionByZero ↔ right.val = 0 := by
  by_cases zero : right.val = 0
  · simp only [divide, zero, if_true]
  · rw [divide, if_neg zero]
    constructor
    · intro answer
      split at answer
      · cases answer
      · split at answer <;> cases answer
    · intro same
      exact absurd same zero

/-- A division has a result exactly when its operands can be aligned and the rounded quotient fits. -/
theorem divide_eq_ok (near : ((target : Int) + rightScale - leftScale).natAbs < 4294967296)
    {quotient : Unscaled} :
    divide left leftScale right rightScale target = .ok quotient ↔
      right.val ≠ 0 ∧ Alignable left leftScale right rightScale target ∧
        quotient.val = roundAway (exactQuotient left leftScale right rightScale target) := by
  by_cases zero : right.val = 0
  · simp only [divide, zero, if_true, reduceCtorEq, ne_eq, not_true_eq_false, false_and]
  have rounded : ∀ {numerator denominator : Unscaled},
      numerator.val = left.val * tenTo (target + rightScale - leftScale) →
      denominator.val = right.val * tenTo (leftScale - (target + rightScale)) →
      nearestQuotient numerator.val denominator.val =
        roundAway (exactQuotient left leftScale right rightScale target) := by
    intro numerator denominator top bottom
    have nonzero : denominator.val ≠ 0 := by
      rw [bottom]
      exact Int.mul_ne_zero zero (Int.natCast_ne_zero.mpr (tenTo_pos _).ne')
    rw [nearestQuotient_eq_roundAway _ nonzero, top, bottom, aligned_quotient _ _ _ _ _ zero]
  rw [divide, if_neg zero]
  constructor
  · intro answer
    split at answer
    · cases answer
    · rename_i numerator denominator aligned
      obtain ⟨fits, top, bottom⟩ := (alignForDivision?_eq_some near).mp aligned
      split at answer
      · cases answer
      · rename_i found fitted
        injection answer with same
        rw [← same, Signed.val_of_ofInt? fitted]
        exact ⟨zero, fits, rounded top bottom⟩
  · intro ⟨_, fits, same⟩
    obtain ⟨numerator, top⟩ := Signed.exists_of_inRange fits.dividend
    obtain ⟨denominator, bottom⟩ := Signed.exists_of_inRange fits.divisor
    have aligned := (alignForDivision?_eq_some near).mpr ⟨fits, top, bottom⟩
    rw [← rounded top bottom] at same
    have fitted := Signed.ofInt?_eq_some.mpr same
    simp only [aligned, fitted]

theorem divide_eq_overflow (near : ((target : Int) + rightScale - leftScale).natAbs < 4294967296) :
    divide left leftScale right rightScale target = .error .overflow ↔
      right.val ≠ 0 ∧ ¬ (Alignable left leftScale right rightScale target ∧
        Signed.InRange 128
          (roundAway (exactQuotient left leftScale right rightScale target))) := by
  constructor
  · intro answer
    have nonzero : right.val ≠ 0 := by
      intro zero
      rw [divide_eq_divisionByZero.mpr zero] at answer
      cases answer
    refine ⟨nonzero, fun ⟨fits, small⟩ => ?_⟩
    obtain ⟨quotient, same⟩ := Signed.exists_of_inRange small
    rw [(divide_eq_ok near).mpr ⟨nonzero, fits, same⟩] at answer
    cases answer
  · intro ⟨nonzero, refused⟩
    cases answer : divide left leftScale right rightScale target with
    | ok quotient =>
      obtain ⟨_, fits, same⟩ := (divide_eq_ok near).mp answer
      exact absurd ⟨fits, same ▸ quotient.inRange_val⟩ refused
    | error fault =>
      cases fault with
      | divisionByZero => exact absurd (divide_eq_divisionByZero.mp answer) nonzero
      | overflow => rfl

/-- A division whose dividend is scaled up within the digits that are allowed does not overflow, and
gives the rational quotient, rounded at the scale that it is asked for. -/
theorem divide_rounded {digits shift : Nat}
    (small : left.val.natAbs < tenTo digits) (few : digits + shift ≤ maxDigits)
    (places : target + rightScale = leftScale + shift) (nonzero : right.val ≠ 0) :
    ∃ numerator quotient,
      alignForDivision? left leftScale right rightScale target = some (numerator, right) ∧
      divide left leftScale right rightScale target = .ok quotient ∧
      quotient.val.natAbs < tenTo (digits + shift) ∧
      quotient.val =
        roundAway (toRat left leftScale / toRat right rightScale * tenTo target) := by
  have up : target + rightScale - leftScale = shift := by omega
  have level : leftScale - (target + rightScale) = 0 := by omega
  have scaled : (left.val * tenTo shift).natAbs < tenTo (digits + shift) := by
    rw [Int.natAbs_mul, Int.natAbs_natCast, tenTo_add]
    exact Nat.mul_lt_mul_of_pos_right small (tenTo_pos _)
  obtain ⟨numerator, _, top⟩ := ofInt?_of_natAbs_lt few scaled
  have bottom : right.val = right.val * tenTo 0 := (Int.mul_one _).symm
  have near : ((target : Int) + rightScale - leftScale).natAbs < 4294967296 := by
    have most : maxDigits = 38 := rfl
    omega
  have aligned := aligned_quotient left right leftScale rightScale target nonzero
  rw [up, level, ← top, ← bottom] at aligned
  have rounded := nearestQuotient_eq_roundAway numerator.val nonzero
  rw [aligned] at rounded
  have below : (nearestQuotient numerator.val right.val).natAbs < tenTo (digits + shift) :=
    Nat.lt_of_le_of_lt (natAbs_nearestQuotient_le _ nonzero) (top ▸ scaled)
  obtain ⟨quotient, _, same⟩ := ofInt?_of_natAbs_lt few below
  have fits : Alignable left leftScale right rightScale target := by
    constructor
    · omega
    · rw [up, ← top]
      exact numerator.inRange_val
    · omega
    · rw [level, ← bottom]
      exact right.inRange_val
  refine ⟨numerator, quotient, ?_, ?_, same ▸ below, same.trans rounded⟩
  · refine (alignForDivision?_eq_some near).mpr ⟨fits, ?_, ?_⟩
    · rw [up, top]
    · rw [level, ← bottom]
  · exact (divide_eq_ok near).mpr ⟨nonzero, fits, same.trans rounded⟩

end Quotient

end Decimal

end WideRow
