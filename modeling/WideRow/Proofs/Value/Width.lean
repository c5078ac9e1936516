import WideRow.Proofs.Number.Width
import WideRow.Proofs.Value.Typing

/-!
# Values within a width

An exact number fits a width if, written at the scale of the width, it has no more digits than the width
allows.  A literal and what a cast leaves fit the width of their type, as long as the scale of the type
is within its precision.
-/

namespace WideRow

open Fallible

/-- The value is an exact number that, written at the scale of the width, is within its digits. -/
def Value.Fits (value : Value) (width : Width) : Prop :=
  ∀ digits scale, width = Width.fixed digits scale →
    ∃ u s, value.fixedPoint? = some (u, s) ∧ s ≤ scale ∧
      u.val.natAbs * 10 ^ (scale - s) < 10 ^ digits

/-- The scale of a decimal type is within its precision, and that within what is allowed. -/
def DataType.WellScaled (type : DataType) : Prop :=
  ∀ precision scale, type = .decimal (some precision) (some scale) →
    scale ≤ precision ∧ precision ≤ Decimal.maxDigits

/-- Whether values of the type are exact numbers. -/
def DataType.isExact : DataType → Bool
  | integer => true
  | bigInt => true
  | decimal _ _ => true
  | _ => false

theorem DataType.WellScaled.ordered {type : DataType} (scaled : type.WellScaled) :
    type.width.Ordered := by
  intro digits scale width
  cases type with
  | integer =>
    cases width
    decide
  | bigInt =>
    cases width
    decide
  | decimal precision declared =>
    cases width
    exact scaled digits scale rfl
  | double => cases width
  | varchar => cases width
  | boolean => cases width

namespace Value

theorem fits_unconstrained (value : Value) : value.Fits Width.unconstrained := by
  intro digits scale same
  cases same

theorem fits_integer {n : Signed 64} {width : Width} : Fits (.integer n) width ↔ width.Holds n.val := by
  constructor
  · intro fits digits scale same
    obtain ⟨u, s, fixed, _, small⟩ := fits digits scale same
    cases fixed
    rw [Decimal.tenTo_eq_pow, Decimal.tenTo_eq_pow]
    exact small
  · intro holds digits scale same
    have small := holds digits scale same
    rw [Decimal.tenTo_eq_pow, Decimal.tenTo_eq_pow] at small
    exact ⟨n.widen, 0, rfl, Nat.zero_le _, small⟩

theorem holds_integer {n : Signed 64} (low : -(Signed.half 32 : Int) ≤ n.val)
    (high : n.val < (Signed.half 32 : Int)) : DataType.integer.width.Holds n.val := by
  intro digits scale width
  cases width
  rw [Signed.half_thirtyTwo] at low high
  have room : Decimal.tenTo 10 = 10000000000 := by decide
  rw [room]
  show _ * 1 < _
  omega

theorem holds_bigInt (n : Signed 64) : DataType.bigInt.width.Holds n.val := by
  intro digits scale width
  cases width
  show _ * 1 < _
  rw [Nat.mul_one]
  exact Width.natAbs_lt_tenTo n

theorem fits_decimal {u : Unscaled} {scale digits : Nat} (small : u.val.natAbs < Decimal.tenTo digits) :
    Fits (.decimal u scale) (Width.fixed digits scale) := by
  intro digits' scale' same
  cases same
  refine ⟨u, scale, rfl, Nat.le_refl _, ?_⟩
  rw [Nat.sub_self, Nat.pow_zero, Nat.mul_one, ← Decimal.tenTo_eq_pow]
  exact small

/-- What a cast leaves fits the width of the type. -/
theorem fits_of_held {value : Value} {type : DataType} (held : Held value type)
    (scaled : type.WellScaled) : value.Fits type.width := by
  cases held with
  | integer n low high => exact fits_integer.mpr (holds_integer low high)
  | bigInt n => exact fits_integer.mpr (holds_bigInt n)
  | decimal u small place digits =>
    rename_i scale precision declared
    intro most target width
    cases width
    have room := scaled most target rfl
    have same : scale = target := (place target rfl).trans (Nat.min_eq_left (by omega))
    rw [same]
    exact fits_decimal (Decimal.lt_of_checkDigits digits) most target rfl
  | double x => exact fits_unconstrained _
  | varchar s => exact fits_unconstrained _
  | boolean b => exact fits_unconstrained _

/-- A value fits the width of the type that it has by nature. -/
theorem fits_of_naturalType? {value : Value} {type : DataType}
    (natural : value.naturalType? = some type) : value.Fits type.width := by
  cases value with
  | null => cases natural
  | integer n =>
    simp only [naturalType?] at natural
    split at natural
    · rename_i narrow
      obtain ⟨held, fits⟩ := Option.isSome_iff_exists.mp narrow
      have same := Signed.val_of_ofInt? fits
      have low := held.low
      have high := held.high
      injection natural with natural
      rw [← natural]
      exact fits_integer.mpr (holds_integer (by omega) (by omega))
    · injection natural with natural
      rw [← natural]
      exact fits_integer.mpr (holds_bigInt n)
  | decimal u s =>
    injection natural with natural
    rw [← natural]
    refine fits_decimal ((Decimal.digitCount_le_iff ?_).mp ?_)
    · exact Nat.le_max_right _ 1
    · exact Nat.le_trans (Nat.le_max_left _ s) (Nat.le_max_left _ 1)
  | float x =>
    injection natural with natural
    rw [← natural]
    exact fits_unconstrained _
  | text s =>
    injection natural with natural
    rw [← natural]
    exact fits_unconstrained _
  | boolean b =>
    injection natural with natural
    rw [← natural]
    exact fits_unconstrained _

theorem LiteralOf.fits {value : Value} {known : Option DataType} {type : DataType}
    (literal : LiteralOf value known) (declared : known = some type) (scaled : type.WellScaled)
    (present : value ≠ .null) : value.Fits type.width := by
  cases literal with
  | natural small => exact fits_of_naturalType? declared
  | missing type => exact absurd rfl present
  | held held =>
    injection declared with same
    exact fits_of_held (same ▸ held) scaled

end Value

end WideRow
