import WideRow.Proofs.Number.Rational

/-!
# Rounded division on machine words

The quotient of two decimals is computed on exact integers and brought back to 128 bits.  Here the same
quotient is computed on words throughout.  A checked step reports a result that does not fit its word as
an overflow.  Any other step stops the whole computation there (`Stop.outOfWord`), so a computation that
agrees with the exact one has no such step.

* `Words.nearest_eq`: the rounding step, up to the least integer and to remainders that nearly fill a word.
* `Words.divide_eq`: the whole division.
* `Decimal.divide_nearest`: the result, and when there is none.
-/

namespace WideRow

/-- Why a computation on words ends without a result. -/
inductive Stop where
  /-- A checked step has reported a fault. -/
  | fault (cause : NumericFault)
  /-- The result of an unchecked step does not fit its word. -/
  | outOfWord
  deriving DecidableEq

namespace Words

/-! ### Steps on words -/

/-- The result of checked steps, which report an overflow where they have none. -/
def orOverflow {α : Type} : Option α → Except Stop α
  | some a => .ok a
  | none => .error (.fault .overflow)

/-- A checked step on signed words. -/
def checked (bits : Nat) (n : Int) : Except Stop (Signed bits) := orOverflow (Signed.ofInt? bits n)

/-- An unchecked step on signed words. -/
def signed (bits : Nat) (n : Int) : Except Stop (Signed bits) :=
  match Signed.ofInt? bits n with
  | some x => .ok x
  | none => .error .outOfWord

/-- An unchecked step on unsigned words. -/
def unsigned (bits : Nat) (n : Int) : Except Stop Nat :=
  if 0 ≤ n ∧ n < 2 * (Signed.half bits : Int) then .ok n.toNat else .error .outOfWord

theorem checked_of_inRange {bits : Nat} {n : Int} (fits : Signed.InRange bits n) :
    checked bits n = pure ⟨n, fits.1, fits.2⟩ := by
  simp only [checked, Signed.ofInt?_of_inRange fits, orOverflow]
  rfl

theorem checked_of_not_inRange {bits : Nat} {n : Int} (outside : ¬ Signed.InRange bits n) :
    checked bits n = .error (.fault .overflow) := by
  simp only [checked, Signed.ofInt?_eq_none.mpr outside, orOverflow]

theorem signed_of_inRange {bits : Nat} {n : Int} (fits : Signed.InRange bits n) :
    signed bits n = pure ⟨n, fits.1, fits.2⟩ := by
  simp only [signed, Signed.ofInt?_of_inRange fits]
  rfl

theorem unsigned_natCast {bits n : Nat} (fits : n < 2 * Signed.half bits) :
    unsigned bits n = pure n := by
  rw [unsigned, if_pos (by omega), Int.toNat_natCast]
  rfl

/-! ### Rounding -/

/-- Rounds a truncated quotient, a half going away from zero.  The sizes of the remainder and of the
divisor are unsigned words, in which the remainder is doubled. -/
def roundHalf (whole rest divisor : Unscaled) : Except Stop Unscaled := do
  let size ← unsigned 128 divisor.val.natAbs
  let part ← unsigned 128 rest.val.natAbs
  let doubled ← unsigned 128 (part * 2 : Nat)
  if size ≤ doubled then
    if decide (rest.val < 0) = decide (divisor.val < 0) then signed 128 (whole.val + 1)
    else signed 128 (whole.val - 1)
  else return whole

/-- The truncated quotient, which does not fit for the least integer and minus one. -/
def quotient (numerator denominator : Unscaled) : Except Stop Unscaled :=
  if denominator.val = 0 then .error (.fault .overflow)
  else checked 128 (numerator.val.tdiv denominator.val)

/-- The remainder, refused where the quotient is. -/
def remainder (numerator denominator : Unscaled) : Except Stop Unscaled := do
  let _ ← quotient numerator denominator
  signed 128 (numerator.val.tmod denominator.val)

/-- The rounded quotient. -/
def nearest (numerator denominator : Unscaled) : Except Stop Unscaled := do
  let whole ← quotient numerator denominator
  let rest ← remainder numerator denominator
  roundHalf whole rest denominator

theorem natAbs_tmod_lt (n : Int) {d : Int} (nonzero : d ≠ 0) : (n.tmod d).natAbs < d.natAbs := by
  rw [Int.natAbs_tmod]
  exact Nat.mod_lt _ (Int.natAbs_pos.mpr nonzero)

/-- A divisor beyond one leaves a quotient at most half as large as the dividend. -/
theorem two_mul_natAbs_tdiv_le (n : Int) {d : Int} (large : 2 ≤ d.natAbs) :
    2 * (n.tdiv d).natAbs ≤ n.natAbs := by
  have whole : (n.tdiv d).natAbs = n.natAbs / d.natAbs := Int.natAbs_tdiv n d
  have split := Nat.div_add_mod n.natAbs d.natAbs
  have scaled := Nat.mul_le_mul_right (n.natAbs / d.natAbs) large
  omega

/-- A truncated quotient that fits its word, or that of a divisor beyond one, is rounded within it. -/
theorem inRange_nearestQuotient {numerator denominator : Unscaled} (nonzero : denominator.val ≠ 0) :
    Signed.InRange 128 (numerator.val.tdiv denominator.val) ↔
      Signed.InRange 128 (Decimal.nearestQuotient numerator.val denominator.val) := by
  have low := numerator.low
  have high := numerator.high
  have half := Signed.half_oneTwentyEight
  by_cases unit : denominator.val.natAbs = 1
  · -- nothing is left over, so nothing is rounded
    have rest : (numerator.val.tmod denominator.val).natAbs = 0 := by
      rw [Int.natAbs_tmod, unit, Nat.mod_one]
    have exact_ : Decimal.nearestQuotient numerator.val denominator.val =
        numerator.val.tdiv denominator.val := by
      simp only [Decimal.nearestQuotient]
      rw [if_neg (by omega)]
    rw [exact_]
  · have small := two_mul_natAbs_tdiv_le numerator.val (d := denominator.val) (by omega)
    have near : (Decimal.nearestQuotient numerator.val denominator.val).natAbs ≤
        (numerator.val.tdiv denominator.val).natAbs + 1 := by
      simp only [Decimal.nearestQuotient]
      split_ifs <;> omega
    have wholeFits : Signed.InRange 128 (numerator.val.tdiv denominator.val) := by
      constructor <;> omega
    have roundedFits : Signed.InRange 128
        (Decimal.nearestQuotient numerator.val denominator.val) := by
      constructor <;> omega
    exact iff_of_true wholeFits roundedFits

/-- Twice a remainder fits an unsigned word, because a remainder is smaller than its divisor. -/
theorem roundHalf_eq {numerator denominator whole rest : Unscaled} (nonzero : denominator.val ≠ 0)
    (wholeSame : whole.val = numerator.val.tdiv denominator.val)
    (restSame : rest.val = numerator.val.tmod denominator.val) :
    roundHalf whole rest denominator =
      checked 128 (Decimal.nearestQuotient numerator.val denominator.val) := by
  have low := denominator.low
  have high := denominator.high
  have half := Signed.half_oneTwentyEight
  have below := natAbs_tmod_lt numerator.val nonzero
  rw [← restSame] at below
  have fits : Signed.InRange 128 (Decimal.nearestQuotient numerator.val denominator.val) := by
    rw [← inRange_nearestQuotient nonzero, ← wholeSame]
    exact whole.inRange_val
  have size : unsigned 128 denominator.val.natAbs = pure denominator.val.natAbs :=
    unsigned_natCast (by omega)
  have part : unsigned 128 rest.val.natAbs = pure rest.val.natAbs := unsigned_natCast (by omega)
  have doubled : unsigned 128 (rest.val.natAbs * 2 : Nat) = pure (rest.val.natAbs * 2) :=
    unsigned_natCast (by omega)
  have trims : Decimal.nearestQuotient numerator.val denominator.val =
      if denominator.val.natAbs ≤ rest.val.natAbs * 2 then
        if decide (rest.val < 0) = decide (denominator.val < 0) then whole.val + 1 else whole.val - 1
      else whole.val := by
    simp only [Decimal.nearestQuotient, wholeSame, restSame, Nat.mul_comm 2]
  have held : ∀ n, n = Decimal.nearestQuotient numerator.val denominator.val →
      signed 128 n = checked 128 (Decimal.nearestQuotient numerator.val denominator.val) := by
    intro n same
    rw [same, signed_of_inRange fits, checked_of_inRange fits]
  rw [roundHalf, size, pure_bind, part, pure_bind, doubled, pure_bind]
  by_cases half : denominator.val.natAbs ≤ rest.val.natAbs * 2
  · rw [if_pos half] at trims ⊢
    by_cases same : decide (rest.val < 0) = decide (denominator.val < 0)
    · rw [if_pos same] at trims ⊢
      exact held _ trims.symm
    · rw [if_neg same] at trims ⊢
      exact held _ trims.symm
  · rw [if_neg half] at trims ⊢
    rw [checked_of_inRange fits]
    exact congrArg Except.ok (Signed.eq_of_val trims.symm)

section Fitting

variable {numerator denominator : Unscaled} (nonzero : denominator.val ≠ 0)
  (fits : Signed.InRange 128 (numerator.val.tdiv denominator.val))

include nonzero

theorem inRange_tmod : Signed.InRange 128 (numerator.val.tmod denominator.val) := by
  have low := denominator.low
  have high := denominator.high
  have below := natAbs_tmod_lt numerator.val nonzero
  constructor <;> omega

theorem quotient_of_inRange : quotient numerator denominator =
    pure ⟨numerator.val.tdiv denominator.val, fits.1, fits.2⟩ := by
  rw [quotient, if_neg nonzero, checked_of_inRange fits]

include fits in
theorem remainder_of_inRange : remainder numerator denominator =
    pure ⟨numerator.val.tmod denominator.val, (inRange_tmod nonzero).1, (inRange_tmod nonzero).2⟩ := by
  rw [remainder, quotient_of_inRange nonzero fits, pure_bind,
    signed_of_inRange (inRange_tmod nonzero)]

end Fitting

/-- The rounded quotient on words is the exact one, if that fits. -/
theorem nearest_eq {numerator denominator : Unscaled} (nonzero : denominator.val ≠ 0) :
    nearest numerator denominator =
      checked 128 (Decimal.nearestQuotient numerator.val denominator.val) := by
  rw [nearest]
  by_cases fits : Signed.InRange 128 (numerator.val.tdiv denominator.val)
  · rw [quotient_of_inRange nonzero fits, pure_bind, remainder_of_inRange nonzero fits, pure_bind]
    exact roundHalf_eq nonzero rfl rfl
  · have refused : quotient numerator denominator = .error (.fault .overflow) := by
      rw [quotient, if_neg nonzero, checked_of_not_inRange fits]
    have outside := mt (inRange_nearestQuotient nonzero).mpr fits
    rw [refused, checked_of_not_inRange outside]
    rfl

/-! ### Division -/

/-- A decimal scaled up by as many places.  The number of places becomes an unsigned word of 32 bits, and
the power of ten is a checked signed one. -/
def scaleUp (value : Unscaled) (places : Int) : Except Stop Unscaled := do
  let exponent ← unsigned 32 places
  let factor ← checked 128 (Decimal.tenTo exponent)
  checked 128 (value.val * factor.val)

/-- The operands of a division, the dividend scaled up or the divisor. -/
def align (left right : Unscaled) (shift : Signed 64) : Except Stop (Unscaled × Unscaled) :=
  if 0 ≤ shift.val then do
    let numerator ← scaleUp left shift.val
    return (numerator, right)
  else do
    let opposite ← signed 64 (-shift.val)
    let denominator ← scaleUp right opposite.val
    return (left, denominator)

/-- The quotient of two decimals on words.  The scales are unsigned words of 32 bits, which are combined in
signed words of 64. -/
def divide (left : Unscaled) (leftScale : UInt32) (right : Unscaled) (rightScale target : UInt32) :
    Except Stop Unscaled :=
  if right.val = 0 then .error (.fault .divisionByZero)
  else do
    let places ← signed 64 (target.toNat + rightScale.toNat)
    let shift ← signed 64 (places.val - leftScale.toNat)
    let (numerator, denominator) ← align left right shift
    nearest numerator denominator

/-- A power of ten fits a word of 128 bits exactly up to the largest scale. -/
theorem inRange_tenTo {k : Nat} : Signed.InRange 128 (Decimal.tenTo k) ↔ k ≤ Decimal.maxDigits := by
  have last : Decimal.tenTo Decimal.maxDigits < Signed.half 128 := by decide
  have next : Signed.half 128 ≤ Decimal.tenTo (Decimal.maxDigits + 1) := by decide
  constructor
  · intro fits
    by_contra beyond
    have power : Decimal.tenTo (Decimal.maxDigits + 1) ≤ Decimal.tenTo k :=
      Decimal.tenTo_le_tenTo (Nat.not_le.mp beyond)
    have high := fits.2
    omega
  · intro few
    have power := Decimal.tenTo_le_tenTo few
    constructor <;> omega

theorem scaleUp_eq (value : Unscaled) {k : Nat} (near : k < 4294967296) :
    scaleUp value (k : Int) =
      orOverflow ((Decimal.tenTo? k).bind fun factor => Signed.ofInt? 128 (value.val * factor)) := by
  have exponent : unsigned 32 (k : Int) = pure k := unsigned_natCast near
  rw [scaleUp, exponent, pure_bind]
  by_cases few : k ≤ Decimal.maxDigits
  · rw [checked_of_inRange (inRange_tenTo.mpr few), pure_bind, Decimal.tenTo?, if_pos few]
    rfl
  · rw [checked_of_not_inRange (mt inRange_tenTo.mp few), Decimal.tenTo?, if_neg few]
    rfl

/-- Aligning on words is aligning exactly, as long as the shift fits 32 bits. -/
theorem align_eq (left right : Unscaled) {leftScale rightScale target : Nat} {shift : Signed 64}
    (same : shift.val = (target : Int) + rightScale - leftScale)
    (near : shift.val.natAbs < 4294967296) :
    align left right shift =
      orOverflow (Decimal.alignForDivision? left leftScale right rightScale target) := by
  simp only [align, Decimal.alignForDivision?, ← same]
  by_cases up : 0 ≤ shift.val
  · obtain ⟨k, places⟩ := Int.eq_ofNat_of_zero_le up
    rw [if_pos up, if_pos up, places, scaleUp_eq left (by omega),
      Decimal.shiftFactor?_natCast (by omega)]
    cases Decimal.tenTo? k with
    | none => rfl
    | some factor =>
      show (orOverflow (Signed.ofInt? 128 (left.val * factor)) >>= fun n => .ok (n, right)) =
        orOverflow (Signed.ofInt? 128 (left.val * factor) >>= fun n => some (n, right))
      cases Signed.ofInt? 128 (left.val * factor) with
      | none => rfl
      | some numerator => rfl
  · obtain ⟨k, places⟩ := Int.eq_ofNat_of_zero_le (a := -shift.val) (by omega)
    have fits : Signed.InRange 64 (k : Int) := by
      have half := Signed.half_sixtyFour
      constructor <;> omega
    rw [if_neg up, if_neg up, places, signed_of_inRange fits, pure_bind,
      scaleUp_eq right (by omega), Decimal.shiftFactor?_natCast (by omega)]
    cases Decimal.tenTo? k with
    | none => rfl
    | some factor =>
      show (orOverflow (Signed.ofInt? 128 (right.val * factor)) >>= fun n => .ok (left, n)) =
        orOverflow (Signed.ofInt? 128 (right.val * factor) >>= fun n => some (left, n))
      cases Signed.ofInt? 128 (right.val * factor) with
      | none => rfl
      | some denominator => rfl

/-- A division on words is the exact one, as long as the shift between its scales fits 32 bits. -/
theorem divide_eq (left right : Unscaled) {leftScale rightScale target : UInt32}
    (near : ((target.toNat : Int) + rightScale.toNat - leftScale.toNat).natAbs < 4294967296) :
    divide left leftScale right rightScale target =
      (Decimal.divide left leftScale.toNat right rightScale.toNat target.toNat).mapError .fault := by
  have half := Signed.half_sixtyFour
  have first := leftScale.toNat_lt
  have second := rightScale.toNat_lt
  have third := target.toNat_lt
  rw [divide, Decimal.divide]
  by_cases zero : right.val = 0
  · rw [if_pos zero, if_pos zero]
    rfl
  have placesFit : Signed.InRange 64 ((target.toNat : Int) + rightScale.toNat) := by
    constructor <;> omega
  have shiftFits : Signed.InRange 64
      ((target.toNat : Int) + rightScale.toNat - leftScale.toNat) := by
    constructor <;> omega
  rw [if_neg zero, if_neg zero, signed_of_inRange placesFit, pure_bind, signed_of_inRange shiftFits,
    pure_bind, align_eq left right rfl near]
  cases aligned : Decimal.alignForDivision? left leftScale.toNat right rightScale.toNat target.toNat with
  | none => rfl
  | some operands =>
    obtain ⟨numerator, denominator⟩ := operands
    obtain ⟨_, _, bottom⟩ := (Decimal.alignForDivision?_eq_some near).mp aligned
    have nonzero : denominator.val ≠ 0 := by
      rw [bottom]
      exact Int.mul_ne_zero zero (Int.natCast_ne_zero.mpr (Decimal.tenTo_pos _).ne')
    have lined : orOverflow (some (numerator, denominator)) = pure (numerator, denominator) := rfl
    dsimp only
    rw [lined, pure_bind, nearest_eq nonzero, checked]
    cases Signed.ofInt? 128 (Decimal.nearestQuotient numerator.val denominator.val) with
    | none => rfl
    | some quotient => rfl

end Words

namespace Decimal

/-- **Division is correctly rounded.**  Take any two decimals and any scales, such that the quotient is
shifted by fewer than 2^32 places.  Division by zero is reported exactly where the divisor is zero.  Else
there is a result exactly where the operands can be aligned and the rounded quotient fits 128 bits, and an
overflow where not.  The result is the exact quotient, rounded to the nearest integer with a half going away
from zero.  The same is computed on words, where no unchecked step leaves its word. -/
theorem divide_nearest (left right : Unscaled) (leftScale rightScale target : UInt32)
    (near : ((target.toNat : Int) + rightScale.toNat - leftScale.toNat).natAbs < 4294967296) :
    (divide left leftScale.toNat right rightScale.toNat target.toNat = .error .divisionByZero ↔
      right.val = 0) ∧
    (∀ quotient, divide left leftScale.toNat right rightScale.toNat target.toNat = .ok quotient ↔
      right.val ≠ 0 ∧ Alignable left leftScale.toNat right rightScale.toNat target.toNat ∧
        quotient.val =
          roundAway (exactQuotient left leftScale.toNat right rightScale.toNat target.toNat)) ∧
    (divide left leftScale.toNat right rightScale.toNat target.toNat = .error .overflow ↔
      right.val ≠ 0 ∧ ¬ (Alignable left leftScale.toNat right rightScale.toNat target.toNat ∧
        Signed.InRange 128
          (roundAway (exactQuotient left leftScale.toNat right rightScale.toNat target.toNat)))) ∧
    Words.divide left leftScale right rightScale target =
      (divide left leftScale.toNat right rightScale.toNat target.toNat).mapError .fault := by
  exact ⟨divide_eq_divisionByZero, fun _ => divide_eq_ok near, divide_eq_overflow near,
    Words.divide_eq left right near⟩

/-- The dividend is one short of the divisor, so that the remainder doubled is four short of 128 bits. -/
theorem divide_nearest_almostOne :
    (((0 : UInt32).toNat : Int) + (0 : UInt32).toNat - (0 : UInt32).toNat).natAbs < 4294967296 ∧
      divide ⟨-170141183460469231731687303715884105726, by decide, by decide⟩ 0
        ⟨170141183460469231731687303715884105727, by decide, by decide⟩ 0 0 =
          .ok ⟨-1, by decide, by decide⟩ ∧
      Words.divide ⟨-170141183460469231731687303715884105726, by decide, by decide⟩ 0
        ⟨170141183460469231731687303715884105727, by decide, by decide⟩ 0 0 =
          .ok ⟨-1, by decide, by decide⟩ := by
  have near : (((0 : UInt32).toNat : Int) + (0 : UInt32).toNat - (0 : UInt32).toNat).natAbs <
      4294967296 := by decide
  have quotient : divide ⟨-170141183460469231731687303715884105726, by decide, by decide⟩ 0
      ⟨170141183460469231731687303715884105727, by decide, by decide⟩ 0 0 =
        .ok ⟨-1, by decide, by decide⟩ := by decide +kernel
  obtain ⟨_, _, _, words⟩ :=
    divide_nearest ⟨-170141183460469231731687303715884105726, by decide, by decide⟩
      ⟨170141183460469231731687303715884105727, by decide, by decide⟩ 0 0 0 near
  refine ⟨near, quotient, words.trans ?_⟩
  exact congrArg (Except.mapError Stop.fault) quotient

end Decimal

end WideRow
