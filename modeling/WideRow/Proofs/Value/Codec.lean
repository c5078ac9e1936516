import WideRow.Proofs.Value.Order

/-!
# The stored form of values

What is written for a value is read back as the value at the type of its column, except that a negative
zero comes back as the positive one (`decode_encode`).  Where the scale of decimals is declared, the
bytes of two values are ordered like the values (`compare_encodeCast`).
-/

namespace WideRow

/-! ### Sortable doubles -/

namespace Binary64

theorem sortable_eq (x : Binary64) :
    (x.sortable : Int) =
      if x.key < 0 then (signWeight : Int) - 1 + x.key else (signWeight : Int) + x.key := by
  have small := x.bits_lt
  unfold sortable key isZero negative magnitude signWeight
  by_cases sign : 9223372036854775808 ≤ x.bits
  · have rest : x.bits % 9223372036854775808 = x.bits - 9223372036854775808 := by omega
    rw [rest]
    by_cases zero : x.bits - 9223372036854775808 = 0
    · simp only [sign, zero, decide_true, if_true]
      omega
    · simp only [sign, zero, decide_true, decide_false, if_true, Bool.false_eq_true, if_false]
      rw [if_pos (by omega)]
      omega
  · have rest : x.bits % 9223372036854775808 = x.bits := Nat.mod_eq_of_lt (by omega)
    rw [rest]
    by_cases zero : x.bits = 0
    · simp only [zero, decide_true, if_true]
      omega
    · simp only [sign, zero, decide_false, Bool.false_eq_true, if_false]
      rw [if_neg (by omega)]
      omega

theorem compare_sortable (x y : Binary64) : compare x.sortable y.sortable = compare x.key y.key := by
  have left := sortable_eq x
  have right := sortable_eq y
  rw [← compare_natCast]
  refine compare_int_congr ?_ ?_
  · split at left <;> split at right <;> omega
  · split at left <;> split at right <;> omega

theorem magnitude_lt (x : Binary64) : x.magnitude < signWeight := Nat.mod_lt _ (by decide)

theorem sortable_lt (x : Binary64) : x.sortable < Bytes.room 8 := by
  have room : (Bytes.room 8 : Int) = 2 * signWeight := by decide
  have small : (x.magnitude : Int) < signWeight := Int.ofNat_lt.mpr x.magnitude_lt
  have sortable := sortable_eq x
  have bound : x.key ≤ x.magnitude := by
    unfold key
    split <;> omega
  refine Int.ofNat_lt.mp ?_
  rw [room, sortable]
  split <;> omega

/-- The double as it is read back: both zeros are stored as the positive one. -/
def stored (x : Binary64) : Binary64 := if x.isZero then zero else x

theorem ofSortable_sortable (x : Binary64) : ofSortable x.sortable = x.stored := by
  have small := x.bits_lt
  have exact_ : ofBits x.bits = x := by
    unfold ofBits
    congr 1
    exact Nat.mod_eq_of_lt small
  unfold ofSortable sortable stored
  by_cases isZero : x.isZero = true
  · rw [if_pos isZero, if_pos isZero, if_pos (Nat.le_refl _), Nat.sub_self]
    rfl
  rw [if_neg isZero, if_neg isZero]
  have nonzero : x.bits % signWeight ≠ 0 := fun zero => isZero (decide_eq_true zero)
  unfold signWeight at nonzero ⊢
  by_cases sign : x.negative = true
  · have above : 9223372036854775808 ≤ x.bits := of_decide_eq_true sign
    rw [if_pos sign, if_neg (by omega)]
    have back : 18446744073709551615 - (18446744073709551615 - x.bits) = x.bits := by omega
    rw [back, exact_]
  · rw [if_neg sign, if_pos (Nat.le_add_left _ _), Nat.add_sub_cancel, exact_]

theorem key_stored (x : Binary64) : x.stored.key = x.key := by
  simp only [stored]
  split
  · rename_i isZero
    have zero : x.magnitude = 0 := of_decide_eq_true isZero
    have positive : Binary64.zero.key = 0 := by decide
    rw [positive]
    rw [key, zero]
    split <;> rfl
  · rfl

theorem isNaN_stored (x : Binary64) : x.stored.isNaN = x.isNaN := by
  simp only [stored]
  split
  · rename_i isZero
    have zero : x.magnitude = 0 := of_decide_eq_true isZero
    unfold isNaN
    rw [zero]
    rfl
  · rfl

theorem compare?_stored (x y : Binary64) : x.stored.compare? y = x.compare? y := by
  unfold compare?
  rw [isNaN_stored, key_stored]

end Binary64

namespace Value

open Fallible

/-! ### Reading back -/

/-- The value as it is read back. -/
def stored : Value → Value
  | float x => float x.stored
  | value => value

theorem Held.stored {value : Value} {type : DataType} (held : Held value type) :
    Held value.stored type := by
  cases held with
  | integer n low high => exact .integer n low high
  | bigInt n => exact .bigInt n
  | decimal unscaled small place digits => exact .decimal unscaled small place digits
  | double x => exact .double x.stored
  | varchar s => exact .varchar s
  | boolean b => exact .boolean b

theorem compare?_stored (a b : Value) : a.stored.compare? b = a.compare? b := by
  cases a with
  | float x =>
    cases b with
    | integer m => exact Binary64.compare?_stored _ _
    | decimal w t => exact Binary64.compare?_stored _ _
    | float y => exact Binary64.compare?_stored _ _
    | null => rfl
    | text s => rfl
    | boolean b => rfl
  | null => rfl
  | integer n => rfl
  | decimal u s => rfl
  | text s => rfl
  | boolean b => rfl

theorem offset_lt {bits width : Nat} (room : Bytes.room width = 2 * Signed.half bits)
    (a : Signed bits) : a.offset < Bytes.room width := by
  have low := a.low
  have high := a.high
  rw [Signed.offset, room]
  omega

theorem decode_encodeCast {value : Value} {type : DataType} {bytes : Bytes}
    (held : Held value type) (written : encodeCast type value = some bytes) :
    decode bytes type = .ok value.stored := by
  cases held with
  | integer n low high =>
    injection written with same
    have number : Bytes.ofBigEndian bytes = (⟨n.val, low, high⟩ : Signed 32).offset := by
      rw [← same]
      exact Bytes.ofBigEndian_bigEndian_of_lt (offset_lt (by decide) (⟨n.val, low, high⟩ : Signed 32))
    have back : ((n.val + Signed.half 32).toNat : Int) - Signed.half 32 = n.val := by omega
    have length : bytes.length = 4 := by rw [← same, Bytes.bigEndian_length]
    rw [decode, checkLength, if_pos length, number]
    show Except.ok (integer (Signed.wrap 64 (((n.val + Signed.half 32).toNat : Int) - _))) = _
    rw [back, Signed.wrap_val]
    rfl
  | bigInt n =>
    injection written with same
    have number : Bytes.ofBigEndian bytes = n.offset := by
      rw [← same]
      exact Bytes.ofBigEndian_bigEndian_of_lt (offset_lt (by decide) n)
    have length : bytes.length = 8 := by rw [← same, Bytes.bigEndian_length]
    rw [decode, checkLength, if_pos length, number, Signed.ofOffset_offset]
    rfl
  | decimal unscaled small place digits =>
    rename_i scale precision declared
    injection written with same
    have number : Bytes.ofBigEndian (bytes.drop 1) = unscaled.offset := by
      rw [← same, List.drop_one, List.tail_cons]
      exact Bytes.ofBigEndian_bigEndian_of_lt (offset_lt (by decide) unscaled)
    have place : Bytes.ofBigEndian (bytes.take 1) = scale := by
      rw [← same, List.take_succ_cons, List.take_zero, Bytes.ofBigEndian, Bytes.ofBigEndian]
      have byte : (UInt8.ofNat scale).toNat = scale % 256 := UInt8.toNat_ofNat'
      rw [byte, Nat.mod_eq_of_lt (Nat.lt_of_le_of_lt small (by decide))]
      exact Nat.mul_one scale
    have length : bytes.length = 17 := by rw [← same, List.length_cons, Bytes.bigEndian_length]
    rw [decode, checkLength, if_pos length, number, place, Signed.ofOffset_offset]
    rfl
  | double x =>
    injection written with same
    have number : Bytes.ofBigEndian bytes = x.sortable := by
      rw [← same]
      exact Bytes.ofBigEndian_bigEndian_of_lt x.sortable_lt
    have length : bytes.length = 8 := by rw [← same, Bytes.bigEndian_length]
    rw [decode, checkLength, if_pos length, number, Binary64.ofSortable_sortable]
    rfl
  | varchar s =>
    injection written with same
    rw [decode, decodeText, ← same, Utf8.decode?_encode]
    rfl
  | boolean b =>
    injection written with same
    rw [← same]
    cases b <;> rfl

/-- A value as a cast leaves it is not changed by the cast. -/
theorem cast_of_held {value : Value} {type : DataType} (held : Held value type) :
    value.cast type = .ok value := by
  cases held with
  | integer n low high =>
    show toInteger 32 n.val = _
    unfold toInteger
    have narrow : Signed.ofInt? 32 n.val = some ⟨n.val, low, high⟩ := dif_pos ⟨low, high⟩
    rw [narrow, Signed.ofInt?_val]
  | bigInt n => rfl
  | decimal unscaled small place digits =>
    rename_i scale precision declared
    have target : min (declared.getD scale) Decimal.maxDigits = scale := by
      cases declared with
      | none => exact Nat.min_eq_left small
      | some target => exact (place target rfl).symm
    show toDecimal unscaled scale precision declared = _
    simp only [toDecimal, target]
    exact bind_eq_ok.mpr ⟨unscaled, orOverflow_eq_ok.mpr (Decimal.rescale?_self unscaled scale),
      bind_eq_ok.mpr ⟨(), ofNumeric_eq_ok.mpr digits, rfl⟩⟩
  | double x => rfl
  | varchar s => rfl
  | boolean b => rfl

theorem encode_eq_ok {value : Value} {type : DataType} {bytes : Bytes}
    (encoded : value.encode type = .ok bytes) :
    ∃ cast, value.cast type = .ok cast ∧ Held cast type ∧ encodeCast type cast = some bytes := by
  simp only [encode] at encoded
  split at encoded
  · cases encoded
  obtain ⟨cast, answer, written⟩ := bind_eq_ok.mp encoded
  split at written
  · rename_i found
    injection written with same
    rw [same] at found
    refine ⟨cast, answer, ?_, found⟩
    rcases held_of_cast answer with missing | held
    · rw [missing] at found
      cases found
    · exact held
  · cases written

/-- What is written for a value is read back as the value at the type of its column. -/
theorem decode_encode {value : Value} {type : DataType} {bytes : Bytes}
    (encoded : value.encode type = .ok bytes) :
    ∃ cast, value.cast type = .ok cast ∧ Held cast type ∧ encodeCast type cast = some bytes ∧
      decode bytes type = .ok cast.stored := by
  obtain ⟨cast, answer, held, written⟩ := encode_eq_ok encoded
  exact ⟨cast, answer, held, written, decode_encodeCast held written⟩

/-! ### Order -/

theorem compare_offset {bits : Nat} (a b : Signed bits) :
    compare a.offset b.offset = compare a.val b.val := by
  have left := a.low
  have right := b.low
  unfold Signed.offset
  rw [← compare_natCast]
  refine compare_int_congr ?_ ?_
  · omega
  · omega

theorem compare_bigEndian_offset {bits width : Nat} (room : Bytes.room width = 2 * Signed.half bits)
    (a b : Signed bits) :
    compare (Bytes.bigEndian width a.offset) (Bytes.bigEndian width b.offset) =
      compare a.val b.val := by
  rw [Bytes.compare_bigEndian (offset_lt room a) (offset_lt room b), compare_offset]

/-- The bytes of two values of a type are ordered like the values, unless one of them is not a number or
the type leaves the scale of its decimals open. -/
theorem compare_encodeCast {a b : Value} {type : DataType} {x y : Bytes}
    (left : Held a type) (right : Held b type)
    (declared : ∀ precision, type ≠ .decimal precision none)
    (leftNumber : a.isNaN = false) (rightNumber : b.isNaN = false)
    (leftBytes : encodeCast type a = some x) (rightBytes : encodeCast type b = some y) :
    a.compare? b = some (compare x y) := by
  cases left with
  | integer n low high =>
    cases right with
    | integer m low' high' =>
      injection leftBytes with leftSame
      injection rightBytes with rightSame
      have order : compare (Bytes.bigEndian 4 _) (Bytes.bigEndian 4 _) = compare n.val m.val :=
        compare_bigEndian_offset (by decide) (⟨n.val, low, high⟩ : Signed 32) ⟨m.val, low', high'⟩
      rw [← leftSame, ← rightSame]
      exact congrArg some order.symm
  | bigInt n =>
    cases right with
    | bigInt m =>
      injection leftBytes with leftSame
      injection rightBytes with rightSame
      rw [← leftSame, ← rightSame, compare_bigEndian_offset (by decide) n m]
      rfl
  | decimal u small place digits =>
    rename_i scale precision target
    cases right with
    | decimal w small' place' digits' =>
      rename_i scale'
      cases target with
      | none => exact absurd rfl (declared precision)
      | some target =>
        have same : scale' = scale := (place' target rfl).trans (place target rfl).symm
        injection leftBytes with leftSame
        injection rightBytes with rightSame
        rw [← leftSame, ← rightSame, same, List.compare_cons_cons,
          compare_bigEndian_offset (by decide) u w, UInt8.compare_eq_toNat_compare_toNat,
          Nat.compare_eq_eq.mpr rfl]
        exact Decimal.compare?_level u w scale
  | double v =>
    cases right with
    | double w =>
      injection leftBytes with leftSame
      injection rightBytes with rightSame
      rw [← leftSame, ← rightSame, Bytes.compare_bigEndian v.sortable_lt w.sortable_lt,
        Binary64.compare_sortable]
      show v.compare? w = _
      unfold Binary64.compare?
      rw [show v.isNaN = false from leftNumber, show w.isNaN = false from rightNumber]
      rfl
  | varchar s =>
    cases right with
    | varchar t =>
      injection leftBytes with leftSame
      injection rightBytes with rightSame
      rw [← leftSame, ← rightSame]
      rfl
  | boolean b =>
    cases right with
    | boolean c =>
      injection leftBytes with leftSame
      injection rightBytes with rightSame
      rw [← leftSame, ← rightSame]
      cases b <;> cases c <;> rfl

end Value

end WideRow
