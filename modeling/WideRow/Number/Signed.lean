/-!
# Signed integers of a fixed width

`Signed bits` is an integer together with the bounds of two's complement at that width.  Arithmetic is
done on the exact integer `val` and brought back by `ofInt?`, which refuses what does not fit, or by
`wrap`, which reduces modulo the width.

Two unsigned forms are used in storage: the two's complement `pattern`, and the `offset` from the
least value, whose order is the order of the integers.
-/

namespace WideRow

/-- The size of the non-negative half of the range at `bits` bits. -/
def Signed.half (bits : Nat) : Nat := Nat.pow 2 (bits - 1)

/-- An integer within the bounds of two's complement at `bits` bits. -/
structure Signed (bits : Nat) where
  val : Int
  low : -(Signed.half bits : Int) ≤ val
  high : val < (Signed.half bits : Int)
  deriving DecidableEq

namespace Signed

theorem half_pos (bits : Nat) : 0 < half bits := Nat.pow_pos (by decide)

theorem half_sixteen : half 16 = 32768 := rfl

theorem half_thirtyTwo : half 32 = 2147483648 := rfl

theorem half_sixtyFour : half 64 = 9223372036854775808 := rfl

theorem half_oneTwentyEight : half 128 = 170141183460469231731687303715884105728 := rfl

/-- The integer, if it fits the width. -/
def ofInt? (bits : Nat) (n : Int) : Option (Signed bits) :=
  if fits : -(half bits : Int) ≤ n ∧ n < (half bits : Int) then some ⟨n, fits.1, fits.2⟩ else none

theorem ofInt?_val {bits : Nat} (x : Signed bits) : ofInt? bits x.val = some x :=
  dif_pos ⟨x.low, x.high⟩

theorem val_of_ofInt? {bits : Nat} {n : Int} {x : Signed bits} (fits : ofInt? bits n = some x) :
    x.val = n := by
  unfold ofInt? at fits
  split at fits
  · injection fits with same
    rw [← same]
  · contradiction

/-- The integer with the given distance from the least one, reduced modulo the width. -/
def ofOffset (bits : Nat) (n : Int) : Signed bits where
  val := n % (2 * half bits) - half bits
  low := by
    have positive := half_pos bits
    have := Int.emod_nonneg n (b := 2 * half bits) (by omega)
    omega
  high := by
    have positive := half_pos bits
    have := Int.emod_lt_of_pos n (b := 2 * half bits) (by omega)
    omega

/-- The distance from the least integer of the width. -/
def offset {bits : Nat} (x : Signed bits) : Nat := (x.val + half bits).toNat

/-- The integer reduced modulo the width. -/
def wrap (bits : Nat) (n : Int) : Signed bits := ofOffset bits (n + half bits)

/-- The two's complement pattern as an unsigned number. -/
def pattern {bits : Nat} (x : Signed bits) : Nat := (x.val % (2 * half bits)).toNat

/-- The greatest integer of the width. -/
def greatest (bits : Nat) : Signed bits where
  val := half bits - 1
  low := by
    have := half_pos bits
    omega
  high := by omega

/-- Zero. -/
def zero (bits : Nat) : Signed bits where
  val := 0
  low := by omega
  high := by
    have := half_pos bits
    omega

/-- Signed integers are ordered as integers. -/
def order {bits : Nat} (x y : Signed bits) : Ordering := compare x.val y.val

theorem ofOffset_offset {bits : Nat} (x : Signed bits) : ofOffset bits x.offset = x := by
  have low := x.low
  have high := x.high
  have positive := half_pos bits
  obtain ⟨n, _, _⟩ := x
  simp only [ofOffset, offset, Signed.mk.injEq]
  simp only at low high
  rw [Int.emod_eq_of_lt (by omega) (by omega)]
  omega

theorem wrap_val {bits : Nat} (x : Signed bits) : wrap bits x.val = x := by
  have same : ((x.offset : Nat) : Int) = x.val + half bits := by
    have low := x.low
    simp only [offset]
    omega
  rw [wrap, ← same, ofOffset_offset]

theorem pattern_lt {bits : Nat} (x : Signed bits) : x.pattern < 2 * half bits := by
  have positive := half_pos bits
  have below := Int.emod_lt_of_pos x.val (b := 2 * half bits) (by omega)
  simp only [pattern]
  omega

theorem wrap_pattern {bits : Nat} (x : Signed bits) : wrap bits x.pattern = x := by
  have positive := half_pos bits
  have low := x.low
  have high := x.high
  have nonneg := Int.emod_nonneg x.val (b := 2 * half bits) (by omega)
  obtain ⟨n, _, _⟩ := x
  simp only at low high nonneg
  simp only [wrap, ofOffset, pattern, Signed.mk.injEq]
  rw [Int.toNat_of_nonneg nonneg, Int.emod_add_emod, Int.emod_eq_of_lt (by omega) (by omega)]
  omega

theorem pattern_wrap (bits : Nat) (n : Int) :
    ((wrap bits n).pattern : Int) = n % (2 * half bits) := by
  have positive := half_pos bits
  have nonneg := Int.emod_nonneg n (b := 2 * half bits) (by omega)
  have same : ((n + half bits) % (2 * half bits) - half bits) % (2 * half bits) =
      n % (2 * half bits) := by
    rw [Int.sub_emod, Int.emod_emod, ← Int.sub_emod, Int.add_sub_cancel]
  simp only [pattern, wrap, ofOffset, same]
  exact Int.toNat_of_nonneg nonneg

/-- A pattern of the lower half stands for itself, one of the upper half for a negative number. -/
theorem val_wrap_natCast {bits n : Nat} (small : n < 2 * half bits) :
    (wrap bits n).val = if n < half bits then (n : Int) else (n : Int) - 2 * half bits := by
  have positive := half_pos bits
  simp only [wrap, ofOffset]
  split
  · rw [Int.emod_eq_of_lt (by omega) (by omega)]
    omega
  · rw [← Int.sub_emod_right, Int.emod_eq_of_lt (by omega) (by omega)]
    omega

end Signed

/-- A moment, in the units of the store. -/
abbrev Timestamp := Signed 64

/-- The integer behind a fixed-point number. -/
abbrev Unscaled := Signed 128

end WideRow
