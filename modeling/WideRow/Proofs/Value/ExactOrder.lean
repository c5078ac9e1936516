import WideRow.Proofs.Number.Rounding
import WideRow.Proofs.Value.Order

/-!
# The order of exact numbers

Integers and decimals are compared as the rational numbers that they stand for, as long as both can be
brought to the larger scale within 128 bits.  Where they cannot, the doubles near them are compared; that
still gives the order of two numbers that are apart by more than the doubles are off
(`Value.compare?_exact`).  Numbers that are closer may count as equal or come in the wrong order
(`Value.compare?_reversed`).
-/

namespace WideRow

/-- Two numbers that differ by more than one part in `2 ^ 50` of the larger one. -/
def Apart (x y : ℚ) : Prop := max |x| |y| < 2 ^ 50 * |x - y|

theorem Apart.swap {x y : ℚ} (apart : Apart x y) : Apart y x := by
  rw [Apart, max_comm, abs_sub_comm]
  exact apart

/-- Numbers that are apart keep their order if each of them is off by at most one part in `2 ^ 51`. -/
theorem lt_of_near {x y x' y' : ℚ} (left : |x' - x| ≤ 2 ^ (-51 : ℤ) * |x|)
    (right : |y' - y| ≤ 2 ^ (-51 : ℤ) * |y|) (apart : Apart x y) (less : x < y) : x' < y' := by
  unfold Apart at apart
  rw [abs_sub_comm, abs_of_pos (sub_pos.mpr less)] at apart
  have first := le_trans (le_max_left |x| |y|) apart.le
  have second := le_max_right |x| |y|
  norm_num only [zpow_neg, zpow_ofNat] at left right apart first
  rw [abs_le] at left right
  linarith

theorem compare_of_near {x y x' y' : ℚ} (left : |x' - x| ≤ 2 ^ (-51 : ℤ) * |x|)
    (right : |y' - y| ≤ 2 ^ (-51 : ℤ) * |y|) (apart : Apart x y) :
    compare x' y' = compare x y := by
  rcases lt_trichotomy x y with less | same | more
  · rw [compare_lt_iff_lt.mpr less, compare_lt_iff_lt]
    exact lt_of_near left right apart less
  · -- equal numbers are not apart
    unfold Apart at apart
    rw [same, sub_self, abs_zero, mul_zero, max_self] at apart
    exact absurd apart (not_lt.mpr (abs_nonneg y))
  · rw [compare_gt_iff_gt.mpr more, compare_gt_iff_gt]
    exact lt_of_near right left apart.swap more

namespace Decimal

theorem compare?_of_aligned {a b a' b' : Unscaled} {s t : Nat}
    (left : rescale? a s (max s t) = some a') (right : rescale? b t (max s t) = some b') :
    compare? a s b t = some (compare (toRat a s) (toRat b t)) := by
  rw [compare?_of_rescale? left right, ← compare_toRat a' b' (max s t),
    toRat_of_rescale? (le_max_left s t) left, toRat_of_rescale? (le_max_right s t) right]

/-- Decimals that do not align are compared as the doubles near them. -/
theorem compare?_of_not_aligned {a b : Unscaled} {s t : Nat}
    (apart : ¬((rescale? a s (max s t)).isSome = true ∧ (rescale? b t (max s t)).isSome = true)) :
    compare? a s b t = (toDouble a s).compare? (toDouble b t) := by
  simp only [compare?]
  split
  · rename_i left right
    rw [left, right] at apart
    exact absurd ⟨rfl, rfl⟩ apart
  · rfl

theorem compare?_toDouble (a b : Unscaled) {s t : Nat} (few : s ≤ maxDigits) (few' : t ≤ maxDigits) :
    (toDouble a s).compare? (toDouble b t) =
      some (compare (toDouble a s).toRat (toDouble b t).toRat) := by
  have small : maxDigits < 2147483648 := by decide
  exact Binary64.compare?_eq (isNaN_toDouble a (by omega)) (isNaN_toDouble b (by omega))

end Decimal

namespace Value

/-- Exact numbers are compared as decimals. -/
theorem compare?_of_fixedPoint? {left right : Value} {a b : Unscaled} {s t : Nat}
    (first : left.fixedPoint? = some (a, s)) (second : right.fixedPoint? = some (b, t)) :
    left.compare? right = Decimal.compare? a s b t := by
  cases left with
  | integer n =>
    cases first
    cases right with
    | integer m =>
      cases second
      exact (Decimal.compare?_level n.widen m.widen 0).symm
    | decimal u place =>
      cases second
      rfl
    | null => cases second
    | float y => cases second
    | text s => cases second
    | boolean b => cases second
  | decimal u place =>
    cases first
    cases right with
    | integer m =>
      cases second
      rfl
    | decimal w place' =>
      cases second
      rfl
    | null => cases second
    | float y => cases second
    | text s => cases second
    | boolean b => cases second
  | null => cases first
  | float x => cases first
  | text s => cases first
  | boolean b => cases first

/-- Exact numbers of scales that may be declared always have an order, the reverse one if they change
places.  It is the order of the rational numbers that they stand for if they align or are apart, and the
order of the doubles near them if they do not align. -/
theorem compare?_exact {left right : Value} {a b : Unscaled} {s t : Nat}
    (first : left.fixedPoint? = some (a, s)) (second : right.fixedPoint? = some (b, t))
    (few : s ≤ Decimal.maxDigits) (few' : t ≤ Decimal.maxDigits) :
    ∃ o, left.compare? right = some o ∧ right.compare? left = some o.swap ∧
      (Aligns left right ∨ Apart (Decimal.toRat a s) (Decimal.toRat b t) →
        o = compare (Decimal.toRat a s) (Decimal.toRat b t)) ∧
      (¬Aligns left right →
        (Decimal.toDouble a s).compare? (Decimal.toDouble b t) = some o) := by
  have aligned : Aligns left right ↔
      (Decimal.rescale? a s (max s t)).isSome = true ∧
        (Decimal.rescale? b t (max s t)).isSome = true := by
    constructor
    · intro aligns
      exact aligns a s b t first second
    · intro both a' s' b' t' first' second'
      cases first.symm.trans first'
      cases second.symm.trans second'
      exact both
  have swapped := compare?_swap left right
  have decimals := compare?_of_fixedPoint? first second
  by_cases fit : Aligns left right
  · obtain ⟨leftFits, rightFits⟩ := aligned.mp fit
    obtain ⟨a', left'⟩ := Option.isSome_iff_exists.mp leftFits
    obtain ⟨b', right'⟩ := Option.isSome_iff_exists.mp rightFits
    rw [Decimal.compare?_of_aligned left' right'] at decimals
    rw [decimals] at swapped
    exact ⟨_, decimals, swapped, fun _ => rfl, fun unfit => absurd fit unfit⟩
  · rw [Decimal.compare?_of_not_aligned (fun both => fit (aligned.mpr both)),
      Decimal.compare?_toDouble a b few few'] at decimals
    rw [decimals] at swapped
    refine ⟨_, decimals, swapped, ?_, fun _ => Decimal.compare?_toDouble a b few few'⟩
    intro exact_
    exact compare_of_near (Decimal.abs_toDouble_sub_le a few) (Decimal.abs_toDouble_sub_le b few')
      (exact_.resolve_left fit)

theorem compare?_exact_apart :
    ¬Aligns (decimal ⟨17014118346046923173169, by decide, by decide⟩ 1)
        (decimal ⟨170141183460469000000000000000000000000, by decide, by decide⟩ 17) ∧
      compare? (decimal ⟨17014118346046923173169, by decide, by decide⟩ 1)
        (decimal ⟨170141183460469000000000000000000000000, by decide, by decide⟩ 17) = some .gt := by
  have less : Decimal.toRat ⟨170141183460469000000000000000000000000, by decide, by decide⟩ 17 <
      Decimal.toRat ⟨17014118346046923173169, by decide, by decide⟩ 1 := by
    norm_num [Decimal.toRat, Decimal.tenTo]
  have apart : Apart (Decimal.toRat ⟨17014118346046923173169, by decide, by decide⟩ 1)
      (Decimal.toRat ⟨170141183460469000000000000000000000000, by decide, by decide⟩ 17) := by
    norm_num [Apart, Decimal.toRat, Decimal.tenTo, abs_of_pos]
  have first : fixedPoint? (decimal ⟨17014118346046923173169, by decide, by decide⟩ 1) =
      some (⟨17014118346046923173169, by decide, by decide⟩, 1) := rfl
  have second : fixedPoint?
      (decimal ⟨170141183460469000000000000000000000000, by decide, by decide⟩ 17) =
      some (⟨170141183460469000000000000000000000000, by decide, by decide⟩, 17) := rfl
  obtain ⟨o, ordered, _, exact_, _⟩ := compare?_exact first second (by decide) (by decide)
  constructor
  · intro aligned
    exact absurd (aligned _ _ _ _ rfl rfl) (by decide)
  · rw [ordered, exact_ (.inr apart), compare_gt_iff_gt.mpr less]

/-- Numbers that neither align nor are apart may come in the wrong order, or count as equal. -/
theorem compare?_reversed :
    (compare? (decimal ⟨17014118346046923173169, by decide, by decide⟩ 1)
          (decimal (Signed.greatest 128) 17) = some .lt ∧
        Decimal.toRat (Signed.greatest 128) 17 <
          Decimal.toRat ⟨17014118346046923173169, by decide, by decide⟩ 1) ∧
      compare? (decimal ⟨17014118346046923173168730371588410573, by decide, by decide⟩ 0)
          (decimal (Signed.greatest 128) 1) = some .eq ∧
        Decimal.toRat (Signed.greatest 128) 1 <
          Decimal.toRat ⟨17014118346046923173168730371588410573, by decide, by decide⟩ 0 := by
  refine ⟨⟨?_, ?_⟩, ?_, ?_⟩
  · rw [compare?_of_fixedPoint? rfl rfl, Decimal.compare?_of_not_aligned (by decide),
      Decimal.toDouble_eq _ (by decide), Decimal.toDouble_eq _ (by decide),
      Decimal.scaleFactor_eq_powerWithin (by decide), Decimal.scaleFactor_eq_powerWithin (by decide)]
    decide +kernel
  · norm_num [Decimal.toRat, Decimal.tenTo, Signed.greatest, Signed.half_oneTwentyEight]
  · rw [compare?_of_fixedPoint? rfl rfl, Decimal.compare?_of_not_aligned (by decide),
      Decimal.toDouble_eq _ (by decide), Decimal.toDouble_eq _ (by decide),
      Decimal.scaleFactor_eq_powerWithin (by decide), Decimal.scaleFactor_eq_powerWithin (by decide)]
    decide +kernel
  · norm_num [Decimal.toRat, Decimal.tenTo, Signed.greatest, Signed.half_oneTwentyEight]

end Value

end WideRow
