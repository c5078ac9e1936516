import WideRow.Bytes.Basic

/-!
# Numbers as bytes

Unsigned numbers of a fixed width, most significant byte first for cells and keys and least
significant byte first for the wire form.  `room width` counts the numbers of a width; writing drops
what does not fit, so writing and reading back is reduction modulo `room width`.
-/

namespace WideRow.Bytes

/-- How many numbers `width` bytes can write. -/
def room : Nat → Nat
  | 0 => 1
  | width + 1 => 256 * room width

/-- The number as `width` bytes, most significant first. -/
def bigEndian : Nat → Nat → Bytes
  | 0, _ => []
  | width + 1, n => UInt8.ofNat (n / room width) :: bigEndian width n

/-- The number that the bytes write, most significant first. -/
def ofBigEndian : Bytes → Nat
  | [] => 0
  | b :: bs => b.toNat * room bs.length + ofBigEndian bs

/-- The number as `width` bytes, least significant first. -/
def littleEndian : Nat → Nat → Bytes
  | 0, _ => []
  | width + 1, n => UInt8.ofNat n :: littleEndian width (n / 256)

/-- The number that the bytes write, least significant first. -/
def ofLittleEndian : Bytes → Nat
  | [] => 0
  | b :: bs => b.toNat + 256 * ofLittleEndian bs

theorem room_pos (width : Nat) : 0 < room width := by
  induction width with
  | zero => decide
  | succ width ih => simp only [room]; omega

theorem bigEndian_length (width n : Nat) : (bigEndian width n).length = width := by
  induction width with
  | zero => rfl
  | succ width ih => simp only [bigEndian, List.length_cons, ih]

theorem littleEndian_length (width n : Nat) : (littleEndian width n).length = width := by
  induction width generalizing n with
  | zero => rfl
  | succ width ih => simp only [littleEndian, List.length_cons, ih]

theorem ofBigEndian_lt (bytes : Bytes) : ofBigEndian bytes < room bytes.length := by
  induction bytes with
  | nil => decide
  | cons b bs ih =>
    have digit : b.toNat < 256 := b.toNat_lt
    have step : (b.toNat + 1) * room bs.length ≤ 256 * room bs.length :=
      Nat.mul_le_mul_right _ digit
    rw [Nat.succ_mul] at step
    simp only [ofBigEndian, List.length_cons, room]
    omega

theorem ofLittleEndian_littleEndian (width n : Nat) :
    ofLittleEndian (littleEndian width n) = n % room width := by
  induction width generalizing n with
  | zero => simp only [littleEndian, ofLittleEndian, room, Nat.mod_one]
  | succ width ih =>
    have low : (UInt8.ofNat n).toNat = n % 256 := UInt8.toNat_ofNat'
    rw [littleEndian, ofLittleEndian, ih, low, room]
    exact Nat.mod_mul.symm

theorem ofBigEndian_bigEndian (width n : Nat) :
    ofBigEndian (bigEndian width n) = n % room width := by
  induction width with
  | zero => simp only [bigEndian, ofBigEndian, room, Nat.mod_one]
  | succ width ih =>
    have high : (UInt8.ofNat (n / room width)).toNat = n / room width % 256 := UInt8.toNat_ofNat'
    rw [bigEndian, ofBigEndian, ih, high, bigEndian_length, room, Nat.mul_comm 256, Nat.mod_mul,
      Nat.add_comm, Nat.mul_comm (room width)]

theorem ofBigEndian_bigEndian_of_lt {width n : Nat} (small : n < room width) :
    ofBigEndian (bigEndian width n) = n := by
  rw [ofBigEndian_bigEndian]
  exact Nat.mod_eq_of_lt small

theorem bigEndian_add (width n m : Nat) :
    bigEndian width (n * room width + m) = bigEndian width m := by
  induction width generalizing n with
  | zero => rfl
  | succ width ih =>
    have shift : n * room (width + 1) + m = n * 256 * room width + m := by
      rw [room, Nat.mul_assoc]
    have high : (n * 256 * room width + m) / room width = n * 256 + m / room width := by
      rw [Nat.mul_comm (n * 256), Nat.mul_add_div (room_pos width)]
    have digit : UInt8.ofNat (n * 256 + m / room width) = UInt8.ofNat (m / room width) := by
      refine UInt8.toNat_inj.mp ?_
      rw [UInt8.toNat_ofNat', UInt8.toNat_ofNat']
      omega
    rw [bigEndian, bigEndian, shift, high, digit, ih]

/-- A byte string is what is written for the number that it writes. -/
theorem bigEndian_ofBigEndian (bytes : Bytes) :
    bigEndian bytes.length (ofBigEndian bytes) = bytes := by
  induction bytes with
  | nil => rfl
  | cons b bs ih =>
    have high : (b.toNat * room bs.length + ofBigEndian bs) / room bs.length = b.toNat := by
      rw [Nat.mul_comm, Nat.mul_add_div (room_pos _), Nat.div_eq_of_lt (ofBigEndian_lt bs),
        Nat.add_zero]
    rw [List.length_cons, bigEndian, ofBigEndian, high, UInt8.ofNat_toNat, bigEndian_add, ih]

end WideRow.Bytes
