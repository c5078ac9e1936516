import WideRow.Proofs.Number.Words

/-!
# Counting digits

The digits of a number are counted by a loop that drops the last digit of its magnitude until one is left.
Here the loop runs on words, and `Words.Counting` is what its turns preserve: the magnitude is the number
without the digits that have been counted.

* `Words.Counting.turn`, `Words.Counting.last` : a turn of the loop, and its end;
* `Words.countFrom_eq` : the run of the loop from any turn on;
* `Decimal.hasDigits_iff` : a number has one number of digits;
* `Decimal.digits_counted` : what is counted, and the limits that it is compared with.
-/

namespace WideRow

namespace Decimal

/-- A natural number is written with so many decimal digits; zero is written with one. -/
structure HasDigits (n count : Nat) : Prop where
  positive : 1 ≤ count
  below : n < 10 ^ count
  reached : count ≠ 1 → 10 ^ (count - 1) ≤ n

theorem hasDigits_digitCount (n : Nat) : HasDigits n (digitCount n) where
  positive := digitCount_pos n
  below := by
    rw [← tenTo_eq_pow]
    exact (digitCount_le_iff (digitCount_pos n)).mp (Nat.le_refl _)
  reached := by
    intro several
    have positive := digitCount_pos n
    have few : ¬ digitCount n ≤ digitCount n - 1 := by omega
    rw [digitCount_le_iff (by omega), tenTo_eq_pow] at few
    exact Nat.not_lt.mp few

/-- A number has one number of digits. -/
theorem hasDigits_iff {n count : Nat} : HasDigits n count ↔ count = digitCount n := by
  constructor
  · intro ⟨positive, below, reached⟩
    rw [← tenTo_eq_pow] at below
    have most := (digitCount_le_iff positive).mpr below
    by_cases one : count = 1
    · have least := digitCount_pos n
      omega
    · have enough := reached one
      rw [← tenTo_eq_pow] at enough
      have least := mt (digitCount_le_iff (n := n) (k := count - 1) (by omega)).mp
        (Nat.not_lt.mpr enough)
      omega
  · rintro rfl
    exact hasDigits_digitCount n

end Decimal

namespace Words

/-! ### The loop -/

/-- The loop that counts digits.  It drops the last digit of the magnitude, an unsigned word of 128 bits,
and counts it in an unsigned word of 32 bits, until one digit is left. -/
def countFrom (magnitude counted : Nat) : Except Stop Nat :=
  if 10 ≤ magnitude then do
    let next ← unsigned 32 (counted + 1 : Nat)
    countFrom (magnitude / 10) next
  else return counted
termination_by magnitude

/-- The number of digits of a value, counted on words. -/
def digits (value : Unscaled) : Except Stop Nat := do
  let magnitude ← unsigned 128 value.val.natAbs
  countFrom magnitude 1

/-- The loop has counted the last digits of a number, one of them ahead, and the magnitude is what stands
before the others. -/
structure Counting (n magnitude counted : Nat) : Prop where
  positive : 1 ≤ counted
  left : magnitude = n / 10 ^ (counted - 1)
  reached : counted ≠ 1 → 10 ^ (counted - 1) ≤ n

theorem Counting.start (n : Nat) : Counting n n 1 :=
  ⟨Nat.le_refl 1, (Nat.div_one n).symm, fun other => absurd rfl other⟩

variable {n magnitude counted : Nat}

/-- A turn of the loop drops a digit and counts it. -/
theorem Counting.turn (counting : Counting n magnitude counted) (several : 10 ≤ magnitude) :
    Counting n (magnitude / 10) (counted + 1) := by
  obtain ⟨positive, left, _⟩ := counting
  have power : 10 ^ (counted - 1) * 10 = 10 ^ (counted + 1 - 1) := by
    rw [← Nat.pow_succ]
    congr 1
    omega
  refine ⟨by omega, ?_, fun _ => ?_⟩
  · rw [left, Nat.div_div_eq_div_mul, power]
  · rw [left, Nat.le_div_iff_mul_le (by positivity), Nat.mul_comm, power] at several
    exact several

/-- Once one digit is left, all are counted. -/
theorem Counting.last (counting : Counting n magnitude counted) (single : magnitude < 10) :
    Decimal.HasDigits n counted := by
  obtain ⟨positive, left, reached⟩ := counting
  refine ⟨positive, ?_, reached⟩
  have power : 10 * 10 ^ (counted - 1) = 10 ^ counted := by
    rw [← Nat.pow_succ', Nat.succ_eq_add_one, Nat.sub_add_cancel positive]
  rwa [left, Nat.div_lt_iff_lt_mul (by positivity), power] at single

/-- A word of 128 bits has at most 39 digits. -/
theorem Counting.few (counting : Counting n magnitude counted) (word : n < 2 * Signed.half 128) :
    counted ≤ 39 := by
  by_contra many
  have reached := counting.reached (by omega)
  have power : 10 ^ 39 ≤ 10 ^ (counted - 1) := Nat.pow_le_pow_right (by decide) (by omega)
  have beyond : 2 * Signed.half 128 < 10 ^ 39 := by decide
  omega

/-- The loop ends with the number of digits, whichever turn it is in. -/
theorem countFrom_eq (word : n < 2 * Signed.half 128) (counting : Counting n magnitude counted) :
    countFrom magnitude counted = .ok (Decimal.digitCount n) := by
  fun_induction countFrom magnitude counted with
  | case1 magnitude counted several ih =>
    have few := counting.few word
    have half : Signed.half 32 = 2147483648 := Signed.half_thirtyTwo
    rw [unsigned_natCast (by omega), pure_bind]
    exact ih _ (counting.turn several)
  | case2 magnitude counted single =>
    have single := Nat.lt_of_not_le single
    exact congrArg Except.ok (Decimal.hasDigits_iff.mp (counting.last single))

theorem digits_eq (value : Unscaled) : digits value = .ok (Decimal.digits value) := by
  have low := value.low
  have high := value.high
  have word : value.val.natAbs < 2 * Signed.half 128 := by omega
  rw [digits, unsigned_natCast word, pure_bind]
  exact countFrom_eq word (.start _)

end Words

namespace Decimal

theorem checkDigits_eq_ok {value : Unscaled} {limit : Nat} :
    checkDigits value (some limit) = .ok () ↔ digits value ≤ limit := by
  simp only [checkDigits]
  split <;> simp only [reduceCtorEq, true_iff, false_iff] <;> omega

theorem checkDigits_eq_overflow {value : Unscaled} {limit : Nat} :
    checkDigits value (some limit) = .error .overflow ↔ limit < digits value := by
  simp only [checkDigits]
  split <;> simp only [reduceCtorEq, true_iff, false_iff] <;> omega

/-- **Digits are counted.**  The loop over the magnitude of a value ends on words, the least value among
them, with the one number of digits that the magnitude has: a power of ten is above it, and the one before
is not, unless there is only one digit.  So a limit of some digits lets a value pass exactly if its
magnitude is below that power of ten, and else reports an overflow. -/
theorem digits_counted (value : Unscaled) :
    (∀ count, HasDigits value.val.natAbs count ↔ count = digits value) ∧
    Words.digits value = .ok (digits value) ∧
    ∀ limit, 1 ≤ limit →
      (checkDigits value (some limit) = .ok () ↔ value.val.natAbs < 10 ^ limit) ∧
      (checkDigits value (some limit) = .error .overflow ↔ 10 ^ limit ≤ value.val.natAbs) := by
  refine ⟨fun count => hasDigits_iff, Words.digits_eq value, fun limit positive => ?_⟩
  have few : digits value ≤ limit ↔ value.val.natAbs < 10 ^ limit := by
    rw [digits, digitCount_le_iff positive, tenTo_eq_pow]
  exact ⟨checkDigits_eq_ok.trans few,
    checkDigits_eq_overflow.trans (Nat.not_le.symm.trans (few.not.trans Nat.not_lt))⟩

/-- The least value has as many digits as the largest power of ten in 128 bits and one more than are
allowed. -/
theorem digits_counted_least :
    digits ⟨-170141183460469231731687303715884105728, by decide, by decide⟩ = 39 ∧
      Words.digits ⟨-170141183460469231731687303715884105728, by decide, by decide⟩ = .ok 39 ∧
      1 ≤ 38 ∧ 1 ≤ 39 ∧
      checkDigits ⟨-170141183460469231731687303715884105728, by decide, by decide⟩ (some 38) =
        .error .overflow ∧
      checkDigits ⟨-170141183460469231731687303715884105728, by decide, by decide⟩ (some 39) =
        .ok () := by
  obtain ⟨counts, words, limits⟩ :=
    digits_counted ⟨-170141183460469231731687303715884105728, by decide, by decide⟩
  have count := (counts 39).mp ⟨by decide, by decide, fun _ => by decide⟩
  rw [← count] at words
  exact ⟨count.symm, words, by decide, by decide, (limits 38 (by decide)).2.mpr (by decide),
    (limits 39 (by decide)).1.mpr (by decide)⟩

end Decimal

end WideRow
