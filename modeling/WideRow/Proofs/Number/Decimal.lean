import Mathlib.Tactic.Ring
import WideRow.Number.Decimal

/-!
# Digits, rounding and rescaling

The arithmetic behind fixed-point numbers, over exact integers.

* `digitCount_le_iff`: counting digits is comparing with a power of ten.
* `nearestQuotient_near`: a rounded quotient is off by at most half a unit.
* `rescale?_eq_some_of_le`: adding digits is exact, and fails only for want of room.
-/

namespace WideRow

namespace Signed

theorem eq_of_val {bits : Nat} {a b : Signed bits} (same : a.val = b.val) : a = b := by
  cases a
  cases b
  simp only at same
  subst same
  rfl

theorem ofInt?_eq_some {bits : Nat} {n : Int} {x : Signed bits} :
    ofInt? bits n = some x ↔ x.val = n := by
  constructor
  · exact val_of_ofInt?
  · intro same
    rw [← same]
    exact ofInt?_val x

/-- The integer fits the width. -/
def InRange (bits : Nat) (n : Int) : Prop := -(half bits : Int) ≤ n ∧ n < (half bits : Int)

instance (bits : Nat) (n : Int) : Decidable (InRange bits n) :=
  inferInstanceAs (Decidable (_ ∧ _))

theorem inRange_val {bits : Nat} (x : Signed bits) : InRange bits x.val := ⟨x.low, x.high⟩

theorem ofInt?_of_inRange {bits : Nat} {n : Int} (fits : InRange bits n) :
    ofInt? bits n = some ⟨n, fits.1, fits.2⟩ := dif_pos fits

theorem exists_of_inRange {bits : Nat} {n : Int} (fits : InRange bits n) :
    ∃ x : Signed bits, x.val = n := ⟨⟨n, fits.1, fits.2⟩, rfl⟩

theorem ofInt?_eq_none {bits : Nat} {n : Int} : ofInt? bits n = none ↔ ¬ InRange bits n := by
  constructor
  · intro refused fits
    rw [ofInt?_of_inRange fits] at refused
    cases refused
  · intro outside
    exact dif_neg outside

end Signed

namespace Decimal

/-! ### Powers of ten -/

theorem tenTo_eq_pow (k : Nat) : tenTo k = 10 ^ k := by
  induction k with
  | zero => rfl
  | succ k ih => rw [tenTo, ih, Nat.pow_succ, Nat.mul_comm]

theorem tenTo_add (a b : Nat) : tenTo (a + b) = tenTo a * tenTo b := by
  rw [tenTo_eq_pow, tenTo_eq_pow, tenTo_eq_pow, Nat.pow_add]

theorem tenTo_le_tenTo {a b : Nat} (le : a ≤ b) : tenTo a ≤ tenTo b := by
  rw [tenTo_eq_pow, tenTo_eq_pow]
  exact Nat.pow_le_pow_right (by decide) le

theorem tenTo?_eq_some {k factor : Nat} :
    tenTo? k = some factor ↔ k ≤ maxDigits ∧ factor = tenTo k := by
  simp only [tenTo?]
  split
  · rename_i small
    simp only [Option.some.injEq, small, true_and]
    exact eq_comm
  · rename_i large
    simp only [reduceCtorEq, large, false_and]

/-! ### Digits -/

theorem digitCount_pos (n : Nat) : 0 < digitCount n := by
  unfold digitCount
  split <;> omega

theorem digitCount_le_iff {n k : Nat} (positive : 0 < k) : digitCount n ≤ k ↔ n < tenTo k := by
  induction k generalizing n with
  | zero => exact absurd positive (Nat.lt_irrefl 0)
  | succ k ih =>
    have scaled : tenTo (k + 1) = 10 * tenTo k := rfl
    have room := tenTo_pos k
    unfold digitCount
    by_cases small : n < 10
    · rw [if_pos small]
      omega
    rw [if_neg small, Nat.add_le_add_iff_right]
    by_cases last : k = 0
    · have counted := digitCount_pos (n / 10)
      rw [last]
      simp only [tenTo]
      omega
    · rw [ih (Nat.pos_of_ne_zero last)]
      omega

/-- A value that passes the check has no more digits than the limit. -/
theorem lt_of_checkDigits {value : Unscaled} {most : Nat}
    (checked : checkDigits value (some most) = .ok ()) : value.val.natAbs < tenTo most := by
  simp only [checkDigits] at checked
  split at checked
  · cases checked
  · rename_i within
    have counted : 0 < digits value := digitCount_pos _
    exact (digitCount_le_iff (by omega)).mp (Nat.le_of_not_lt within)

/-! ### Rounded quotients -/

theorem nearestQuotient_near (n : Int) {d : Int} (positive : 0 < d) :
    2 * (nearestQuotient n d * d - n).natAbs ≤ d.natAbs := by
  have split := Int.mul_tdiv_add_tmod n d
  have small := Int.tmod_lt_of_pos n positive
  have large := Int.lt_tmod_of_pos n positive
  have up : (n.tdiv d + 1) * d = d * n.tdiv d + d := by ring
  have down : (n.tdiv d - 1) * d = d * n.tdiv d - d := by ring
  have level : n.tdiv d * d = d * n.tdiv d := Int.mul_comm _ _
  simp only [nearestQuotient]
  split
  · split
    · rename_i half same
      have sign : n.tmod d < 0 ↔ d < 0 := decide_eq_decide.mp same
      rw [up]
      omega
    · rename_i half other
      have sign : ¬(n.tmod d < 0 ↔ d < 0) := fun same => other (decide_eq_decide.mpr same)
      rw [down]
      omega
  · rw [level]
    omega

/-! ### Rescaling -/

theorem rescale?_eq_some_of_le {value result : Unscaled} {source target : Nat}
    (le : source ≤ target) :
    rescale? value source target = some result ↔
      target - source ≤ maxDigits ∧ result.val = value.val * tenTo (target - source) := by
  rw [rescale?, tenTo?, if_pos le]
  by_cases near : target - source ≤ maxDigits
  · rw [if_pos near]
    simp only [near, true_and, Option.bind_eq_bind, Option.bind_some]
    exact Signed.ofInt?_eq_some
  · rw [if_neg near]
    simp only [near, false_and, Option.bind_eq_bind, Option.bind_none, reduceCtorEq]

theorem rescale?_self (value : Unscaled) (scale : Nat) : rescale? value scale scale = some value := by
  refine (rescale?_eq_some_of_le (Nat.le_refl scale)).mpr ⟨?_, ?_⟩
  · rw [Nat.sub_self]
    exact Nat.zero_le _
  · rw [Nat.sub_self]
    exact (Int.mul_one _).symm

theorem rescale?_eq_some_of_lt {value result : Unscaled} {source target : Nat}
    (lt : target < source) :
    rescale? value source target = some result ↔
      source - target ≤ maxDigits ∧
        result.val = nearestQuotient value.val (tenTo (source - target)) := by
  unfold rescale? tenTo?
  rw [if_neg (Nat.not_le_of_lt lt)]
  by_cases near : source - target ≤ maxDigits
  · rw [if_pos near]
    simp only [near, true_and, Option.bind_eq_bind, Option.bind_some]
    exact Signed.ofInt?_eq_some
  · rw [if_neg near]
    simp only [near, false_and, Option.bind_eq_bind, Option.bind_none, reduceCtorEq]

end Decimal

end WideRow
