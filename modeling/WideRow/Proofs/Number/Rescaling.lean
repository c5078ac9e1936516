import WideRow.Proofs.Number.Words

/-!
# Rescaling decimals

A change of scale multiplies by a power of ten, or divides by one and rounds.  The nearest integer of a
rational number is told from all others by its distance (`Decimal.IsNearest`), and rounding to it keeps
the order.

* `Decimal.isNearest_iff` : the nearest integer, the one further from zero if there are two;
* `Decimal.rescale?_mono` : what is greater is not less at another scale;
* `Words.rescale_eq` : the same computed on words;
* `Decimal.rescale?_exact_or_nearest` : the result at another scale, and when there is none.
-/

namespace WideRow

namespace Decimal

/-! ### The nearest integer -/

/-- The integer is nearest to the number.  Where another one is as near, it is the one further from zero. -/
structure IsNearest (x : ℚ) (n : ℤ) : Prop where
  near : |x - n| ≤ 1 / 2
  away : |x - n| = 1 / 2 → |x| ≤ |(n : ℚ)|

theorem IsNearest.neg {x : ℚ} {n : ℤ} (nearest : IsNearest x n) : IsNearest (-x) (-n) := by
  have mirrored : |-x - ((-n : ℤ) : ℚ)| = |x - n| := by
    rw [Int.cast_neg, neg_sub_neg, abs_sub_comm]
  refine ⟨mirrored ▸ nearest.near, fun half => ?_⟩
  rw [abs_neg, Int.cast_neg, abs_neg]
  exact nearest.away (mirrored ▸ half)

theorem isNearest_floor {x : ℚ} (nonneg : 0 ≤ x) : IsNearest x ⌊x + 1 / 2⌋ := by
  have low := Int.floor_le (x + 1 / 2)
  have high := Int.lt_floor_add_one (x + 1 / 2)
  refine ⟨abs_le.mpr ⟨by linarith, by linarith⟩, fun half => ?_⟩
  -- at half a unit the number lies below the integer
  have below : x - ⌊x + 1 / 2⌋ ≤ 0 := by
    by_contra above
    rw [abs_of_pos (not_le.mp above)] at half
    linarith
  exact abs_le_abs_of_nonneg nonneg (by linarith)

theorem isNearest_roundAway (x : ℚ) : IsNearest x (roundAway x) := by
  rcases le_or_gt 0 x with nonneg | negative
  · rw [roundAway, if_pos nonneg]
    exact isNearest_floor nonneg
  · rw [roundAway, if_neg (not_le.mpr negative)]
    have mirrored := (isNearest_floor (x := -x) (by linarith)).neg
    rwa [neg_neg] at mirrored

/-- Of the two neighbours of a half only the one further from zero is nearest. -/
theorem IsNearest.le {x : ℚ} {n m : ℤ} (first : IsNearest x n) (second : IsNearest x m) : n ≤ m := by
  by_contra above
  have step : (m : ℚ) + 1 ≤ n := by exact_mod_cast not_le.mp above
  obtain ⟨low, _⟩ := abs_le.mp first.near
  obtain ⟨_, high⟩ := abs_le.mp second.near
  have middle : x = m + 1 / 2 := by linarith
  have upper : (n : ℚ) = m + 1 := by linarith
  have outer := first.away (by rw [middle, upper]; norm_num)
  have inner := second.away (by rw [middle]; norm_num)
  rw [middle, upper] at outer
  rw [middle] at inner
  rcases le_or_gt 0 m with nonneg | negative
  · have nonneg : (0 : ℚ) ≤ m := by exact_mod_cast nonneg
    rw [abs_of_nonneg (by linarith), abs_of_nonneg nonneg] at inner
    linarith
  · have nonpos : (m : ℚ) + 1 ≤ 0 := by exact_mod_cast negative
    rw [abs_of_nonpos (by linarith), abs_of_nonpos nonpos] at outer
    linarith

/-- Every number has one nearest integer. -/
theorem isNearest_iff {x : ℚ} {n : ℤ} : IsNearest x n ↔ n = roundAway x := by
  constructor
  · intro nearest
    exact le_antisymm (nearest.le (isNearest_roundAway x)) ((isNearest_roundAway x).le nearest)
  · rintro rfl
    exact isNearest_roundAway x

theorem roundAway_mono {x y : ℚ} (le : x ≤ y) : roundAway x ≤ roundAway y := by
  unfold roundAway
  by_cases low : 0 ≤ x
  · rw [if_pos low, if_pos (low.trans le)]
    exact Int.floor_mono (by linarith)
  rw [if_neg low]
  by_cases high : 0 ≤ y
  · rw [if_pos high]
    have below : 0 ≤ ⌊-x + 1 / 2⌋ := Int.floor_nonneg.mpr (by linarith)
    have above : 0 ≤ ⌊y + 1 / 2⌋ := Int.floor_nonneg.mpr (by linarith)
    omega
  · rw [if_neg high]
    have mirrored : ⌊-y + 1 / 2⌋ ≤ ⌊-x + 1 / 2⌋ := Int.floor_mono (by linarith)
    omega

/-! ### The result at another scale -/

variable {value : Unscaled} {source target : Nat}

/-- What is greater is not less at another scale. -/
theorem rescale?_mono {other result result' : Unscaled} (le : value.val ≤ other.val)
    (first : rescale? value source target = some result)
    (second : rescale? other source target = some result') : result.val ≤ result'.val := by
  have scaled : toRat value source ≤ toRat other source := by
    rw [toRat, toRat]
    have le : (value.val : ℚ) ≤ other.val := by exact_mod_cast le
    gcongr
  rw [rescale?_rounded first, rescale?_rounded second]
  refine roundAway_mono ?_
  gcongr

/-- Dividing by a power of ten does not leave the word. -/
theorem inRange_tdiv_tenTo (value : Unscaled) {k : Nat} (positive : 0 < k) :
    Signed.InRange 128 (value.val.tdiv (tenTo k)) := by
  have low := value.low
  have high := value.high
  have half := Signed.half_oneTwentyEight
  have ten : tenTo 1 ≤ tenTo k := tenTo_le_tenTo positive
  have unit : tenTo 1 = 10 := rfl
  have small := Words.two_mul_natAbs_tdiv_le value.val (d := tenTo k) (by omega)
  constructor <;> omega

/-- Nor does rounding the quotient. -/
theorem inRange_nearestQuotient_tenTo (value : Unscaled) {k : Nat} (positive : 0 < k)
    (few : k ≤ maxDigits) : Signed.InRange 128 (nearestQuotient value.val (tenTo k)) := by
  obtain ⟨divisor, same⟩ := Signed.exists_of_inRange (Words.inRange_tenTo.mpr few)
  have nonzero : divisor.val ≠ 0 := by
    rw [same]
    exact_mod_cast (tenTo_pos k).ne'
  rw [← same, ← Words.inRange_nearestQuotient nonzero, same]
  exact inRange_tdiv_tenTo value positive

theorem rescale?_eq_none_of_le (le : source ≤ target) :
    rescale? value source target = none ↔ ¬ (target - source ≤ maxDigits ∧
      Signed.InRange 128 (value.val * tenTo (target - source))) := by
  rw [rescale?, if_pos le, tenTo?]
  by_cases few : target - source ≤ maxDigits
  · simp only [few, if_true, Option.bind_eq_bind, Option.bind_some, Signed.ofInt?_eq_none, true_and]
  · simp only [few, if_false, Option.bind_eq_bind, Option.bind_none, false_and, not_false_eq_true]

theorem rescale?_eq_none_of_lt (lt : target < source) :
    rescale? value source target = none ↔ ¬ source - target ≤ maxDigits := by
  rw [rescale?, if_neg (Nat.not_le.mpr lt), tenTo?]
  by_cases few : source - target ≤ maxDigits
  · have fits := inRange_nearestQuotient_tenTo value (Nat.sub_pos_of_lt lt) few
    simp only [few, if_true, Option.bind_eq_bind, Option.bind_some, Signed.ofInt?_of_inRange fits,
      reduceCtorEq, not_true_eq_false]
  · simp only [few, if_false, Option.bind_eq_bind, Option.bind_none, not_false_eq_true]

/-- A result with fewer places is the nearest one. -/
theorem rescale?_eq_some_nearest {result : Unscaled} (lt : target < source) :
    rescale? value source target = some result ↔ source - target ≤ maxDigits ∧
      IsNearest (value.val / tenTo (source - target)) result.val := by
  have divisor : (tenTo (source - target) : ℤ) ≠ 0 := by exact_mod_cast (tenTo_pos _).ne'
  rw [rescale?_eq_some_of_lt lt, isNearest_iff, nearestQuotient_eq_roundAway _ divisor,
    Int.cast_natCast]

end Decimal

namespace Words

/-! ### Rescaling on words -/

/-- An unchecked step, which stops where the checked one would report a fault. -/
def unchecked {α : Type} : Except Stop α → Except Stop α
  | .ok a => .ok a
  | .error _ => .error .outOfWord

theorem unchecked_pure {α : Type} (a : α) : unchecked (pure a) = pure a := rfl

/-- A decimal with as many places less, rounded.  The power of ten is a checked word; dividing by it is
not checked. -/
def scaleDown (value : Unscaled) (places : Int) : Except Stop Unscaled := do
  let exponent ← unsigned 32 places
  let divisor ← checked 128 (Decimal.tenTo exponent)
  let whole ← unchecked (quotient value divisor)
  let rest ← unchecked (remainder value divisor)
  roundHalf whole rest divisor

/-- A decimal at another scale, on words.  The scales are unsigned words of 32 bits. -/
def rescale (value : Unscaled) (source target : UInt32) : Except Stop Unscaled :=
  if source ≤ target then scaleUp value (target.toNat - source.toNat)
  else scaleDown value (source.toNat - target.toNat)

theorem scaleDown_eq (value : Unscaled) {k : Nat} (positive : 0 < k) (near : k < 4294967296) :
    scaleDown value (k : Int) = orOverflow
      ((Decimal.tenTo? k).bind fun divisor =>
        Signed.ofInt? 128 (Decimal.nearestQuotient value.val divisor)) := by
  have exponent : unsigned 32 (k : Int) = pure k := unsigned_natCast near
  rw [scaleDown, exponent, pure_bind]
  by_cases few : k ≤ Decimal.maxDigits
  · have fits := inRange_tenTo.mpr few
    have nonzero : (Decimal.tenTo k : Int) ≠ 0 := by exact_mod_cast (Decimal.tenTo_pos k).ne'
    have whole := Decimal.inRange_tdiv_tenTo value positive
    rw [checked_of_inRange fits, pure_bind, quotient_of_inRange nonzero whole,
      remainder_of_inRange nonzero whole, unchecked_pure, pure_bind, unchecked_pure, pure_bind,
      Decimal.tenTo?, if_pos few, Option.bind_some]
    exact roundHalf_eq nonzero rfl rfl
  · rw [checked_of_not_inRange (mt inRange_tenTo.mp few), Decimal.tenTo?, if_neg few]
    rfl

/-- Rescaling on words is rescaling exactly: no unchecked step leaves its word. -/
theorem rescale_eq (value : Unscaled) (source target : UInt32) :
    rescale value source target =
      orOverflow (Decimal.rescale? value source.toNat target.toNat) := by
  have first := source.toNat_lt
  have second := target.toNat_lt
  rw [rescale, Decimal.rescale?]
  by_cases up : source ≤ target
  · have le := UInt32.le_iff_toNat_le.mp up
    rw [if_pos up, if_pos le, ← Int.ofNat_sub le, scaleUp_eq value (by omega)]
    rfl
  · have lt := Nat.lt_of_not_le (mt UInt32.le_iff_toNat_le.mpr up)
    rw [if_neg up, if_neg (Nat.not_le.mpr lt), ← Int.ofNat_sub (Nat.le_of_lt lt),
      scaleDown_eq value (Nat.sub_pos_of_lt lt) (by omega)]
    rfl

end Words

namespace Decimal

/-- **Rescaling is exact or correctly rounded.**  Take any value and any scales.  Going up, the result is
the product with the power of ten, and there is one exactly if at most 38 digits are added and the product
fits 128 bits.  Going down, the result is the integer nearest to the quotient by the power of ten, the one
further from zero at a half, and there is one exactly if at most 38 digits are dropped.  The same is
computed on words, where no unchecked step leaves its word.  Between two scales, what is greater is not
less. -/
theorem rescale?_exact_or_nearest (value : Unscaled) (source target : UInt32) :
    (source ≤ target →
      (∀ result, rescale? value source.toNat target.toNat = some result ↔
        target.toNat - source.toNat ≤ 38 ∧
          result.val = value.val * 10 ^ (target.toNat - source.toNat)) ∧
      (rescale? value source.toNat target.toNat = none ↔
        ¬ (target.toNat - source.toNat ≤ 38 ∧
          Signed.InRange 128 (value.val * 10 ^ (target.toNat - source.toNat))))) ∧
    (target < source →
      (∀ result, rescale? value source.toNat target.toNat = some result ↔
        source.toNat - target.toNat ≤ 38 ∧
          IsNearest (value.val / 10 ^ (source.toNat - target.toNat)) result.val) ∧
      (rescale? value source.toNat target.toNat = none ↔ 38 < source.toNat - target.toNat)) ∧
    Words.rescale value source target =
      Words.orOverflow (rescale? value source.toNat target.toNat) ∧
    ∀ other result result' : Unscaled, value.val ≤ other.val →
      rescale? value source.toNat target.toNat = some result →
      rescale? other source.toNat target.toNat = some result' → result.val ≤ result'.val := by
  have power : ∀ k, ((tenTo k : Nat) : ℤ) = 10 ^ k := by
    intro k
    rw [tenTo_eq_pow]
    norm_cast
  have power' : ∀ k, ((tenTo k : Nat) : ℚ) = 10 ^ k := by
    intro k
    rw [tenTo_eq_pow]
    norm_cast
  refine ⟨fun up => ?_, fun down => ?_, Words.rescale_eq value source target,
    fun other result result' => rescale?_mono⟩
  · have le := UInt32.le_iff_toNat_le.mp up
    rw [← power]
    exact ⟨fun result => rescale?_eq_some_of_le le, rescale?_eq_none_of_le le⟩
  · have lt := UInt32.lt_iff_toNat_lt.mp down
    rw [← power', ← Nat.not_le]
    exact ⟨fun result => rescale?_eq_some_nearest lt, rescale?_eq_none_of_lt lt⟩

/-- The least value with all the digits dropped that can be dropped. -/
theorem rescale?_exact_or_nearest_least :
    (0 : UInt32) < 38 ∧
      rescale? ⟨-170141183460469231731687303715884105728, by decide, by decide⟩ 38 0 =
        some ⟨-2, by decide, by decide⟩ ∧
      IsNearest ((-170141183460469231731687303715884105728 : ℤ) / 10 ^ 38) (-2) ∧
      Words.rescale ⟨-170141183460469231731687303715884105728, by decide, by decide⟩ 38 0 =
        .ok ⟨-2, by decide, by decide⟩ := by
  have down : (0 : UInt32) < 38 := by decide
  have rescaled : rescale? ⟨-170141183460469231731687303715884105728, by decide, by decide⟩ 38 0 =
      some ⟨-2, by decide, by decide⟩ := by decide +kernel
  obtain ⟨_, dropped, words, _⟩ := rescale?_exact_or_nearest
    ⟨-170141183460469231731687303715884105728, by decide, by decide⟩ 38 0
  refine ⟨down, rescaled, ?_, words.trans (congrArg Words.orOverflow rescaled)⟩
  exact (((dropped down).1 ⟨-2, by decide, by decide⟩).mp rescaled).2

end Decimal

end WideRow
