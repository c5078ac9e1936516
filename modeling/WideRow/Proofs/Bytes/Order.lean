import Mathlib.Data.UInt
import WideRow.Bytes.Endian

/-!
# The order of written numbers

Numbers written in one number of bytes, most significant first, are ordered as byte strings like the
numbers themselves (`Bytes.compare_bigEndian`).
-/

namespace WideRow

theorem ordering_ext {o o' : Ordering} (lt : o = .lt ↔ o' = .lt) (gt : o = .gt ↔ o' = .gt) :
    o = o' := by
  cases o with
  | lt => exact (lt.mp rfl).symm
  | gt => exact (gt.mp rfl).symm
  | eq =>
    cases o' with
    | lt => cases lt.mpr rfl
    | gt => cases gt.mpr rfl
    | eq => rfl

/-- Integers compare alike if they are below each other alike. -/
theorem compare_int_congr {a b c d : Int} (lt : a < b ↔ c < d) (gt : b < a ↔ d < c) :
    compare a b = compare c d := by
  refine ordering_ext ?_ ?_
  · rw [Int.compare_eq_lt, Int.compare_eq_lt]
    exact lt
  · rw [Int.compare_eq_gt, Int.compare_eq_gt]
    exact gt

theorem compare_natCast (a b : Nat) : compare (a : Int) (b : Int) = compare a b := by
  refine ordering_ext ?_ ?_
  · rw [Int.compare_eq_lt, Nat.compare_eq_lt, Int.ofNat_lt]
  · rw [Int.compare_eq_gt, Nat.compare_eq_gt, Int.ofNat_lt]

namespace Bytes

/-- The higher parts decide, and if they are equal the lower ones. -/
theorem compare_digits {unit a b r s : Nat} (small : r < unit) (small' : s < unit) :
    compare (a * unit + r) (b * unit + s) = (compare a b).then (compare r s) := by
  rcases Nat.lt_trichotomy a b with less | same | more
  · have step : (a + 1) * unit ≤ b * unit := Nat.mul_le_mul_right unit less
    rw [Nat.succ_mul] at step
    rw [Nat.compare_eq_lt.mpr less, Nat.compare_eq_lt.mpr (by omega)]
    rfl
  · rw [same, Nat.compare_eq_eq.mpr rfl]
    show _ = compare r s
    refine ordering_ext ?_ ?_
    · rw [Nat.compare_eq_lt, Nat.compare_eq_lt]
      omega
    · rw [Nat.compare_eq_gt, Nat.compare_eq_gt]
      omega
  · have step : (b + 1) * unit ≤ a * unit := Nat.mul_le_mul_right unit more
    rw [Nat.succ_mul] at step
    rw [Nat.compare_eq_gt.mpr more, Nat.compare_eq_gt.mpr (by omega)]
    rfl

theorem compare_bigEndian_mod (width a b : Nat) :
    compare (bigEndian width a) (bigEndian width b) = compare (a % room width) (b % room width) := by
  induction width with
  | zero =>
    rw [room, Nat.mod_one, Nat.mod_one]
    rfl
  | succ width ih =>
    have high : ∀ n, (UInt8.ofNat (n / room width)).toNat = n / room width % 256 :=
      fun n => UInt8.toNat_ofNat'
    have digits : ∀ n, n % room (width + 1) = n / room width % 256 * room width + n % room width := by
      intro n
      rw [room, Nat.mul_comm 256, Nat.mod_mul, Nat.mul_comm (room width), Nat.add_comm]
    rw [bigEndian, bigEndian, List.compare_cons_cons, ih, UInt8.compare_eq_toNat_compare_toNat,
      high, high, digits, digits,
      compare_digits (Nat.mod_lt _ (room_pos width)) (Nat.mod_lt _ (room_pos width))]

theorem compare_bigEndian {width a b : Nat} (small : a < room width) (small' : b < room width) :
    compare (bigEndian width a) (bigEndian width b) = compare a b := by
  rw [compare_bigEndian_mod, Nat.mod_eq_of_lt small, Nat.mod_eq_of_lt small']

end Bytes

end WideRow
