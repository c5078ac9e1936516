/-!
# Byte strings and spans

Keys, cells and values are byte strings.  They are ordered as unsigned bytes from the left, a proper
beginning before its continuations, which is `compare` on lists of bytes.

A `Span` names a stretch of a buffer.  `Span.bytes` is what it covers; `Span.within?` cuts a smaller
span out of it and refuses one that would reach past its end.
-/

namespace WideRow

/-- A byte string. -/
abbrev Bytes := List UInt8

namespace Bytes

/-- The `length` bytes from `offset` on, or as many of them as there are. -/
def slice (bytes : Bytes) (offset length : Nat) : Bytes :=
  (bytes.drop offset).take length

theorem slice_length (bytes : Bytes) (offset length : Nat) :
    (slice bytes offset length).length = min length (bytes.length - offset) := by
  simp only [slice, List.length_take, List.length_drop]

theorem slice_all (bytes : Bytes) : slice bytes 0 bytes.length = bytes := by
  simp only [slice, List.drop_zero, List.take_length]

theorem slice_append_slice (bytes : Bytes) (offset first second : Nat) :
    slice bytes offset first ++ slice bytes (offset + first) second =
      slice bytes offset (first + second) := by
  simp only [slice]
  rw [List.take_add, List.drop_drop]

theorem slice_of_append {bytes before part after : Bytes} (parts : bytes = before ++ part ++ after) :
    slice bytes before.length part.length = part := by
  rw [parts, slice, List.append_assoc, List.drop_left, List.take_left]

theorem slice_one {bytes : Bytes} {index : Nat} (inside : index < bytes.length) :
    slice bytes index 1 = [bytes.getD index 0] := by
  rw [slice, List.drop_eq_getElem_cons inside, List.take_succ_cons, List.take_zero]
  simp only [List.getD_eq_getElem?_getD, List.getElem?_eq_getElem inside, Option.getD_some]

/-- The stretch as a byte string, if it lies in the buffer. -/
def slice? (bytes : Bytes) (offset length : Nat) : Option Bytes :=
  if offset + length ≤ bytes.length then some (slice bytes offset length) else none

/-- The order of two stretches, if both lie in their buffers. -/
def compareSlices? (left : Bytes) (leftOffset leftLength : Nat)
    (right : Bytes) (rightOffset rightLength : Nat) : Option Ordering := do
  let a ← slice? left leftOffset leftLength
  let b ← slice? right rightOffset rightLength
  some (compare a b)

/-- Whether there are at least `count` bytes; the rest is not looked at. -/
def atLeast : Nat → Bytes → Bool
  | 0, _ => true
  | _ + 1, [] => false
  | count + 1, _ :: rest => atLeast count rest

theorem atLeast_iff (count : Nat) (bytes : Bytes) :
    atLeast count bytes = true ↔ count ≤ bytes.length := by
  induction count generalizing bytes with
  | zero => simp only [atLeast, Nat.zero_le]
  | succ count ih =>
    cases bytes with
    | nil =>
      simp only [atLeast, List.length_nil, Bool.false_eq_true, false_iff]
      omega
    | cons b rest =>
      simp only [atLeast, ih, List.length_cons]
      omega

/-! ### Hexadecimal text -/

/-- The lower-case digit of a number below sixteen. -/
def hexDigit (n : Nat) : Char :=
  if n < 10 then Char.ofNat (48 + n) else Char.ofNat (87 + n)

/-- Two lower-case digits a byte, the high one first. -/
def hexChars : Bytes → List Char
  | [] => []
  | b :: bs => hexDigit (b.toNat / 16) :: hexDigit (b.toNat % 16) :: hexChars bs

/-- A byte string as lower-case hexadecimal text. -/
def hex (bytes : Bytes) : String :=
  String.ofList (hexChars bytes)

end Bytes

/-- A stretch of a buffer. -/
structure Span where
  buffer : Bytes
  offset : Nat
  length : Nat
  deriving DecidableEq

namespace Span

/-- The span of nothing. -/
def empty : Span := ⟨[], 0, 0⟩

/-- A whole buffer. -/
def whole (buffer : Bytes) : Span := ⟨buffer, 0, buffer.length⟩

/-- The position after the last byte. -/
def limit (span : Span) : Nat := span.offset + span.length

/-- The bytes the span covers. -/
def bytes (span : Span) : Bytes := Bytes.slice span.buffer span.offset span.length

/-- The span `length` long that starts `offset` bytes into this one, if this one covers it. -/
def within? (span : Span) (offset length : Nat) : Option Span :=
  if offset + length ≤ span.length then some ⟨span.buffer, span.offset + offset, length⟩ else none

theorem bytes_whole (buffer : Bytes) : (whole buffer).bytes = buffer :=
  Bytes.slice_all buffer

end Span

end WideRow
