import WideRow.Number.Signed

/-!
# Fixed-point arithmetic

A decimal is an unscaled 128-bit integer with a scale: `u` at scale `s` stands for `u / tenTo s`.
Everything is computed on exact integers and brought back to 128 bits, so a result is the exact or
correctly rounded one, or an overflow.  Rounding is to the nearest integer, a half away from zero.
-/

namespace WideRow

/-- Why exact arithmetic fails. -/
inductive NumericFault where
  | overflow
  | divisionByZero
  deriving DecidableEq

namespace Decimal

/-- The largest scale and the largest number of digits of a declared decimal. -/
def maxDigits : Nat := 38

/-- The power of ten. -/
def tenTo : Nat → Nat
  | 0 => 1
  | k + 1 => 10 * tenTo k

theorem tenTo_pos (k : Nat) : 0 < tenTo k := by
  induction k with
  | zero => decide
  | succ k ih => simp only [tenTo]; omega

/-- The power of ten, if it fits 128 bits. -/
def tenTo? (k : Nat) : Option Nat :=
  if k ≤ maxDigits then some (tenTo k) else none

/-- The number of decimal digits of a natural number; zero has one. -/
def digitCount (n : Nat) : Nat :=
  if n < 10 then 1 else digitCount (n / 10) + 1

/-- The number of decimal digits of an unscaled value, its sign aside. -/
def digits (value : Unscaled) : Nat := digitCount value.val.natAbs

/-- The integer nearest to a quotient, a half going away from zero. -/
def nearestQuotient (numerator denominator : Int) : Int :=
  let quotient := numerator.tdiv denominator
  let remainder := numerator.tmod denominator
  if denominator.natAbs ≤ 2 * remainder.natAbs then
    if decide (remainder < 0) = decide (denominator < 0) then quotient + 1 else quotient - 1
  else quotient

/-- The same number at another scale: exact when digits are added, rounded when they are dropped.
Nothing when it leaves 128 bits or the scales are more than `maxDigits` apart. -/
def rescale? (value : Unscaled) (source target : Nat) : Option Unscaled :=
  if source ≤ target then do
    let factor ← tenTo? (target - source)
    Signed.ofInt? 128 (value.val * factor)
  else do
    let divisor ← tenTo? (source - target)
    Signed.ofInt? 128 (nearestQuotient value.val divisor)

/-- The power of ten that a shift by `k` places multiplies by; the shift counts modulo 32 bits. -/
def shiftFactor? (k : Int) : Option Nat := tenTo? (k % 4294967296).toNat

/-- The operands of the integer division that yields `left / right` at the scale `target`: the
numerator is scaled up or the denominator is, and both must fit 128 bits. -/
def alignForDivision? (left : Unscaled) (leftScale : Nat) (right : Unscaled) (rightScale : Nat)
    (target : Nat) : Option (Unscaled × Unscaled) :=
  let shift : Int := (target : Int) + rightScale - leftScale
  if 0 ≤ shift then do
    let factor ← shiftFactor? shift
    let numerator ← Signed.ofInt? 128 (left.val * factor)
    some (numerator, right)
  else do
    let factor ← shiftFactor? (-shift)
    let denominator ← Signed.ofInt? 128 (right.val * factor)
    some (left, denominator)

/-- The quotient of two decimals, unscaled at the scale `target`. -/
def divide (left : Unscaled) (leftScale : Nat) (right : Unscaled) (rightScale : Nat)
    (target : Nat) : Except NumericFault Unscaled :=
  if right.val = 0 then .error .divisionByZero
  else
    match alignForDivision? left leftScale right rightScale target with
    | none => .error .overflow
    | some (numerator, denominator) =>
      match Signed.ofInt? 128 (nearestQuotient numerator.val denominator.val) with
      | none => .error .overflow
      | some quotient => .ok quotient

/-- Refuses a value of more digits than the limit, when there is one. -/
def checkDigits (value : Unscaled) (limit : Option Nat) : Except NumericFault Unit :=
  match limit with
  | some most => if most < digits value then .error .overflow else .ok ()
  | none => .ok ()

end Decimal

end WideRow
