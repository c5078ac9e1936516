import WideRow.Proofs.Value.Codec
import WideRow.Proofs.Value.ExactOrder

/-!
# Stored bytes

What the store sees of the values of a column are their bytes.

* `Value.compare_encode`: the bytes of two values are ordered like the values at the type of the column,
  and so like the numbers that they stand for.
* `Value.decode_encode_stored`: the bytes are read back as the value, and what is read back is written as
  the same bytes.  Apart from doubles and decimals, all bytes that can be read are written for some value.
-/

namespace WideRow

namespace Value

open Fallible

/-! ### Order -/

/-- The number that a value stands for. -/
def number? : Value → Option ℚ
  | integer n => some n.val
  | decimal unscaled scale => some (Decimal.toRat unscaled scale)
  | float x => if x.isNaN then none else some x.toRat
  | _ => none

theorem compare_intCast (m n : Int) : compare (m : ℚ) n = compare m n := by
  simpa using compare_fractions m n one_pos

/-- Numbers of one column are ordered like the numbers that they stand for. -/
theorem compare?_of_number? {a b : Value} {type : DataType} {q r : ℚ}
    (left : Held a type) (right : Held b type) (declared : ∀ precision, type ≠ .decimal precision none)
    (first : a.number? = some q) (second : b.number? = some r) :
    a.compare? b = some (compare q r) := by
  cases left with
  | integer n low high =>
    cases right with
    | integer m low' high' =>
      cases first
      cases second
      exact congrArg some (compare_intCast n.val m.val).symm
  | bigInt n =>
    cases right with
    | bigInt m =>
      cases first
      cases second
      exact congrArg some (compare_intCast n.val m.val).symm
  | decimal u small place digits =>
    rename_i scale precision target
    cases right with
    | decimal w small' place' digits' =>
      rename_i scale'
      cases first
      cases second
      cases target with
      | none => exact absurd rfl (declared precision)
      | some target =>
        obtain rfl : scale' = scale := (place' target rfl).trans (place target rfl).symm
        rw [Decimal.compare_toRat]
        exact Decimal.compare?_level u w scale'
  | double x =>
    cases right with
    | double y =>
      simp only [number?, Option.ite_none_left_eq_some, Bool.not_eq_true, Option.some.injEq]
        at first second
      rw [← first.2, ← second.2]
      exact Binary64.compare?_eq first.1 second.1
  | varchar s => cases first
  | boolean b => cases first

/-- The bytes of two values of a column are ordered like the values at its type, provided that a decimal
type declares its scale and that a double is a number. -/
theorem compare_encode {a b : Value} {type : DataType} {x y : Bytes}
    (declared : ∀ precision, type ≠ .decimal precision none)
    (left : a.encode type = .ok x) (right : b.encode type = .ok y)
    (leftNumber : ∀ held, a.cast type = .ok held → held.isNaN = false)
    (rightNumber : ∀ held, b.cast type = .ok held → held.isNaN = false) :
    ∃ c d, a.cast type = .ok c ∧ b.cast type = .ok d ∧ c.order d = .ok (compare x y) ∧
      (∀ q r, c.number? = some q → d.number? = some r → compare x y = compare q r) ∧
      (∀ s t, c = .text s → d = .text t → compare x y = compare (Utf8.encode s) (Utf8.encode t)) := by
  obtain ⟨c, leftCast, leftHeld, leftBytes⟩ := encode_eq_ok left
  obtain ⟨d, rightCast, rightHeld, rightBytes⟩ := encode_eq_ok right
  have ordered := compare_encodeCast leftHeld rightHeld declared (leftNumber c leftCast)
    (rightNumber d rightCast) leftBytes rightBytes
  refine ⟨c, d, leftCast, rightCast, ?_, ?_, ?_⟩
  · rw [order, ordered]
  · intro q r first second
    have numbers := compare?_of_number? leftHeld rightHeld declared first second
    exact Option.some.inj (ordered.symm.trans numbers)
  · intro s t first second
    rw [first, second] at ordered
    exact (Option.some.inj ordered).symm

theorem compare_encode_mixed :
    ∃ x y, encode (integer ⟨-3, by decide, by decide⟩) (.decimal (some 6) (some 2)) = .ok x ∧
      encode (decimal ⟨25, by decide, by decide⟩ 1) (.decimal (some 6) (some 2)) = .ok y ∧
      compare x y = .lt := by
  have left : encode (integer ⟨-3, by decide, by decide⟩) (.decimal (some 6) (some 2)) =
      .ok (2 :: 127 :: List.replicate 13 255 ++ [254, 212]) := by
    decide +kernel
  have right : encode (decimal ⟨25, by decide, by decide⟩ 1) (.decimal (some 6) (some 2)) =
      .ok (2 :: 128 :: List.replicate 14 0 ++ [250]) := by
    decide +kernel
  have first : cast (integer ⟨-3, by decide, by decide⟩) (.decimal (some 6) (some 2)) =
      .ok (decimal ⟨-300, by decide, by decide⟩ 2) := by
    decide +kernel
  have second : cast (decimal ⟨25, by decide, by decide⟩ 1) (.decimal (some 6) (some 2)) =
      .ok (decimal ⟨250, by decide, by decide⟩ 2) := by
    decide +kernel
  have declared : ∀ precision, DataType.decimal (some 6) (some 2) ≠ .decimal precision none := by
    intro precision same
    cases same
  have leftNumber : ∀ held, cast (integer ⟨-3, by decide, by decide⟩) (.decimal (some 6) (some 2)) =
      .ok held → held.isNaN = false := by
    intro held answer
    cases first.symm.trans answer
    rfl
  have rightNumber : ∀ held, cast (decimal ⟨25, by decide, by decide⟩ 1)
      (.decimal (some 6) (some 2)) = .ok held → held.isNaN = false := by
    intro held answer
    cases second.symm.trans answer
    rfl
  obtain ⟨c, d, firstCast, secondCast, _, numbers, _⟩ :=
    compare_encode declared left right leftNumber rightNumber
  cases first.symm.trans firstCast
  cases second.symm.trans secondCast
  refine ⟨_, _, left, right, ?_⟩
  rw [numbers _ _ rfl rfl, compare_lt_iff_lt]
  norm_num [Decimal.toRat, Decimal.tenTo]

/-! ### Reading back -/

theorem sortable_stored (x : Binary64) : x.stored.sortable = x.sortable := by
  have left := Binary64.sortable_eq x.stored
  rw [Binary64.key_stored, ← Binary64.sortable_eq x] at left
  exact Int.ofNat.inj left

theorem encodeCast_stored (type : DataType) (value : Value) :
    encodeCast type value.stored = encodeCast type value := by
  cases value with
  | float x => exact congrArg (fun n => some (Bytes.bigEndian 8 n)) (sortable_stored x)
  | null => rfl
  | integer n => rfl
  | decimal u s => rfl
  | text s => rfl
  | boolean b => rfl

/-- A value of the column is written as it is. -/
theorem encode_of_held {value : Value} {type : DataType} {bytes : Bytes} (held : Held value type)
    (written : encodeCast type value = some bytes) : value.encode type = .ok bytes := by
  rw [encode, held.hasType.isNull, if_neg Bool.false_ne_true, bind_eq_ok]
  refine ⟨value, cast_of_held held, ?_⟩
  simp only [written]

/-- The negative zero. -/
def negativeZero : Value := float (Binary64.ofMagnitude true 0)

/-- Only the negative zero is read back as another value. -/
theorem stored_eq (value : Value) :
    value.stored = if value = negativeZero then float Binary64.zero else value := by
  cases value with
  | float x =>
    show float x.stored = _
    unfold Binary64.stored
    by_cases isZero : x.isZero = true
    · rw [if_pos isZero]
      by_cases negative : float x = negativeZero
      · rw [if_pos negative]
      · rw [if_neg negative]
        -- the other zero is stored as itself
        have small := x.bits_lt
        have magnitude : x.bits % 9223372036854775808 = 0 := of_decide_eq_true isZero
        have other : x.bits ≠ 9223372036854775808 := by
          intro bits
          apply negative
          obtain ⟨n, below⟩ := x
          subst bits
          rfl
        have bits : x.bits = 0 := by omega
        obtain ⟨n, below⟩ := x
        subst bits
        rfl
    · have positive : float x ≠ negativeZero := by
        intro same
        injection same with same
        rw [same] at isZero
        exact isZero (by decide)
      rw [if_neg isZero, if_neg positive]
  | null => rfl
  | integer n => rfl
  | decimal u s => rfl
  | text s => rfl
  | boolean b => rfl

/-! ### Writing back -/

theorem ofOffset_offset_of_lt {bits n : Nat} (small : n < 2 * Signed.half bits) :
    (Signed.ofOffset bits n).offset = n := by
  rw [Signed.offset, Signed.ofOffset, Int.sub_add_cancel, Int.emod_eq_of_lt (by omega) (by omega)]
  exact Int.toNat_natCast n

theorem checkLength_eq_ok {type : DataType} {expected : Nat} {bytes : Bytes} {done : Unit} :
    checkLength type expected bytes = .ok done ↔ bytes.length = expected := by
  unfold checkLength
  split
  · rename_i same
    exact iff_of_true rfl same
  · rename_i other
    exact iff_of_false nofun other

/-- Integers, texts and booleans are written as the bytes that they were read from. -/
theorem encode_decode {type : DataType} {bytes : Bytes} {value : Value}
    (plain : type = .integer ∨ type = .bigInt ∨ type = .varchar ∨ type = .boolean)
    (answer : decode bytes type = .ok value) : value.encode type = .ok bytes := by
  rcases plain with rfl | rfl | rfl | rfl
  · obtain ⟨_, length, answer⟩ := bind_eq_ok.mp answer
    injection answer with same
    have length := checkLength_eq_ok.mp length
    have small := Bytes.ofBigEndian_lt bytes
    have written := Bytes.bigEndian_ofBigEndian bytes
    rw [length] at small written
    have room : (Bytes.room 4 : Int) = 2 * Signed.half 32 := by decide
    have wide : (2 * Signed.half 32 : Int) < Signed.half 64 := by decide
    have exact_ : (Signed.wrap 64 ((Bytes.ofBigEndian bytes : Int) - Signed.half 32)).val =
        (Bytes.ofBigEndian bytes : Int) - Signed.half 32 :=
      congrArg Signed.val (Signed.wrap_val
        (⟨(Bytes.ofBigEndian bytes : Int) - Signed.half 32, by omega, by omega⟩ : Signed 64))
    rw [← same]
    refine encode_of_held (.integer _ (by omega) (by omega)) ?_
    rw [encodeCast, exact_, Int.sub_add_cancel, Int.toNat_natCast, written]
  · obtain ⟨_, length, answer⟩ := bind_eq_ok.mp answer
    injection answer with same
    have length := checkLength_eq_ok.mp length
    have small := Bytes.ofBigEndian_lt bytes
    have written := Bytes.bigEndian_ofBigEndian bytes
    rw [length] at small written
    have room : Bytes.room 8 = 2 * Signed.half 64 := by decide
    rw [← same]
    refine encode_of_held (.bigInt _) ?_
    rw [encodeCast, ofOffset_offset_of_lt (by omega), written]
  · rw [decode, decodeText] at answer
    split at answer
    · rename_i s found
      injection answer with same
      rw [← same]
      refine encode_of_held (.varchar s) ?_
      rw [encodeCast, Utf8.encode_of_decode? found]
    · cases answer
  · rw [decode] at answer
    unfold decodeBoolean at answer
    split at answer
    · injection answer with same
      rw [← same]
      exact encode_of_held (.boolean false) rfl
    · injection answer with same
      rw [← same]
      exact encode_of_held (.boolean true) rfl
    · cases answer
    · cases answer

/-- Stored bytes are read back as the value at the type of the column, the negative zero as the positive
one, and what is read back is written as the same bytes.  All bytes hold a value of the type or are
malformed, and those of integers, texts and booleans are the ones that are written for their value. -/
theorem decode_encode_stored (type : DataType) :
    (∀ value bytes, encode value type = .ok bytes →
      ∃ held, value.cast type = .ok held ∧
        decode bytes type = .ok (if held = negativeZero then float Binary64.zero else held) ∧
        encode (if held = negativeZero then float Binary64.zero else held) type = .ok bytes) ∧
    (∀ bytes, Meets (fun value => HasType value type) IsMalformed (decode bytes type)) ∧
    (type = .integer ∨ type = .bigInt ∨ type = .varchar ∨ type = .boolean →
      ∀ bytes value, decode bytes type = .ok value → encode value type = .ok bytes) := by
  refine ⟨?_, fun bytes => meets_decode bytes type, fun plain _ _ => encode_decode plain⟩
  intro value bytes encoded
  obtain ⟨held, answer, fits, written, back⟩ := decode_encode encoded
  refine ⟨held, answer, ?_, ?_⟩
  · rw [← stored_eq]
    exact back
  · rw [← stored_eq]
    exact encode_of_held fits.stored ((encodeCast_stored type held).trans written)

theorem decode_encode_stored_negativeZero :
    ∃ bytes, encode negativeZero .double = .ok bytes ∧
      decode bytes .double = .ok (float Binary64.zero) := by
  have written : encode negativeZero .double = .ok (128 :: List.replicate 7 0) := by
    decide +kernel
  obtain ⟨held, answer, back, _⟩ := (decode_encode_stored .double).1 negativeZero _ written
  have same : held = negativeZero := (Except.ok.inj answer).symm
  rw [if_pos same] at back
  exact ⟨_, written, back⟩

end Value

end WideRow
