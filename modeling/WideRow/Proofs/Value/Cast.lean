import WideRow.Proofs.Value.Storage

/-!
# Casts are projections

The values that a cast to a type leaves as they are, missing ones aside, are those that the type holds
(`Value.cast_eq_self_iff`).  Every cast of a value that is not missing ends in one of them, so a second
cast does nothing and the bytes that a column stores are those of the cast value
(`Value.cast_projection`).  A decimal comes to the declared scale, or stays at its own where none is
declared.
-/

namespace WideRow

namespace Value

open Fallible

variable {value result : Value} {type : DataType}

/-! ### Missing values -/

theorem Held.ne_null (held : Held value type) : value ≠ .null := by
  cases held <;> exact nofun

theorem isNull_of_ne_null (present : value ≠ .null) : value.isNull = false := by
  cases value with
  | null => exact absurd rfl present
  | _ => rfl

theorem cast_eq_null_iff (answer : value.cast type = .ok result) : result = .null ↔ value = .null := by
  constructor
  · intro null
    rcases missing_or_held_of_cast answer with ⟨missing, _⟩ | held
    · exact missing
    · exact absurd null held.ne_null
  · intro missing
    rw [missing] at answer
    exact (Except.ok.inj answer).symm

/-! ### Values of the type -/

theorem held_of_present (answer : value.cast type = .ok result) (present : value ≠ .null) :
    Held result type := by
  rcases missing_or_held_of_cast answer with ⟨missing, _⟩ | held
  · exact absurd missing present
  · exact held

/-- A cast leaves exactly the missing value and the values of the type as they are. -/
theorem cast_eq_self_iff : value.cast type = .ok value ↔ value = .null ∨ Held value type := by
  constructor
  · exact held_of_cast
  · rintro (missing | held)
    · rw [missing]
      rfl
    · exact cast_of_held held

theorem cast_of_cast (answer : value.cast type = .ok result) : result.cast type = .ok result :=
  cast_eq_self_iff.mpr (held_of_cast answer)

/-- The scale that a number brings along to a decimal type. -/
def ownScale : Value → Nat
  | decimal _ scale => scale
  | _ => 0

/-- At a decimal type, a number comes to the declared scale or stays at its own, up to the largest scale,
and has no more digits than are declared. -/
theorem decimal_of_cast {precision declared : Option Nat}
    (answer : value.cast (.decimal precision declared) = .ok result) (present : value ≠ .null) :
    ∃ unscaled, result = .decimal unscaled (min (declared.getD value.ownScale) Decimal.maxDigits) ∧
      ∀ most, precision = some most → unscaled.val.natAbs < 10 ^ most := by
  have number : ∃ u, toDecimal u value.ownScale precision declared = .ok result := by
    cases value with
    | null => exact absurd rfl present
    | integer n => exact ⟨n.widen, answer⟩
    | decimal u s => exact ⟨u, answer⟩
    | float x => cases answer
    | text s => cases answer
    | boolean b => cases answer
  obtain ⟨u, answer⟩ := number
  obtain ⟨unscaled, same, _, digits⟩ := toDecimal_eq_ok answer
  refine ⟨unscaled, same, fun most known => ?_⟩
  rw [known] at digits
  rw [← Decimal.tenTo_eq_pow]
  exact Decimal.lt_of_checkDigits digits

/-! ### Stored bytes -/

theorem exists_encodeCast (held : Held value type) : ∃ bytes, encodeCast type value = some bytes := by
  cases held <;> exact ⟨_, rfl⟩

theorem encode_of_cast (answer : value.cast type = .ok result) : result.encode type = value.encode type := by
  by_cases missing : value = .null
  · rw [(cast_eq_null_iff answer).mpr missing, missing]
  · have present : result ≠ .null := fun null => missing ((cast_eq_null_iff answer).mp null)
    rw [encode, encode, isNull_of_ne_null missing, isNull_of_ne_null present, answer, cast_of_cast answer]

/-- **A cast is a projection onto the values of the declared type.**  It is missing exactly where the
value is, another cast does not change it, and a column of the type stores the same bytes for it as for
the value.  A cast of a value that is there is a value of the type: an integer in the range of the type,
a decimal at the declared scale, or at that of the value if none is declared, with at most the declared
digits.  It has stored bytes. -/
theorem cast_projection (answer : value.cast type = .ok result) :
    (result = .null ↔ value = .null) ∧
    result.cast type = .ok result ∧
    result.encode type = value.encode type ∧
    (value ≠ .null → Held result type ∧
      (∀ precision declared, type = .decimal precision declared →
        ∃ unscaled,
          result = .decimal unscaled (min (declared.getD value.ownScale) Decimal.maxDigits) ∧
          ∀ most, precision = some most → unscaled.val.natAbs < 10 ^ most) ∧
      ∃ bytes, value.encode type = .ok bytes) := by
  refine ⟨cast_eq_null_iff answer, cast_of_cast answer, encode_of_cast answer, ?_⟩
  intro present
  have held := held_of_present answer present
  refine ⟨held, ?_, ?_⟩
  · rintro precision declared rfl
    exact decimal_of_cast answer present
  · obtain ⟨bytes, written⟩ := exists_encodeCast held
    exact ⟨bytes, (encode_of_cast answer).symm.trans (encode_of_held held written)⟩

/-- Rounding to the declared scale carries into a new digit. -/
theorem cast_projection_carry :
    cast (decimal ⟨9995, by decide, by decide⟩ 3) (.decimal (some 4) (some 2)) =
        .ok (decimal ⟨1000, by decide, by decide⟩ 2) ∧
      cast (decimal ⟨1000, by decide, by decide⟩ 2) (.decimal (some 4) (some 2)) =
        .ok (decimal ⟨1000, by decide, by decide⟩ 2) ∧
      encode (decimal ⟨1000, by decide, by decide⟩ 2) (.decimal (some 4) (some 2)) =
        encode (decimal ⟨9995, by decide, by decide⟩ 3) (.decimal (some 4) (some 2)) := by
  have answer : cast (decimal ⟨9995, by decide, by decide⟩ 3) (.decimal (some 4) (some 2)) =
      .ok (decimal ⟨1000, by decide, by decide⟩ 2) := by
    decide +kernel
  obtain ⟨_, again, stored, _⟩ := cast_projection answer
  exact ⟨answer, again, stored⟩

end Value

end WideRow
