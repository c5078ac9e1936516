import WideRow.Bytes.Endian
import WideRow.Value.Cast

/-!
# Stored form of values

The bytes that a column of a declared type holds.  The encodings keep order: comparing two encodings
of one type as bytes gives the order of the values.  Integers are written as their offset from the
least one, most significant byte first.  A decimal is a scale byte before the offset of its unscaled
integer.  A double is its pattern with the sign bit flipped, or with all bits flipped if negative, and
both zeros are written as the positive one.
-/

namespace WideRow

namespace Binary64

/-- The unsigned number whose order is the order of the doubles. -/
def sortable (x : Binary64) : Nat :=
  if x.isZero then signWeight
  else if x.negative then 18446744073709551615 - x.bits
  else x.bits + signWeight

/-- The double with the given sortable number. -/
def ofSortable (n : Nat) : Binary64 :=
  if signWeight ≤ n then ofBits (n - signWeight) else ofBits (18446744073709551615 - n)

end Binary64

namespace Value

/-- The bytes of a value already brought to the type of its column. -/
def encodeCast (type : DataType) : Value → Option Bytes
  | integer n =>
    match type with
    | .integer => some (Bytes.bigEndian 4 (n.val + Signed.half 32).toNat)
    | .bigInt => some (Bytes.bigEndian 8 n.offset)
    | _ => none
  | decimal u s => some (UInt8.ofNat s :: Bytes.bigEndian 16 u.offset)
  | float x => some (Bytes.bigEndian 8 x.sortable)
  | text s => some (Utf8.encode s)
  | boolean b => some [if b then 1 else 0]
  | null => none

/-- The bytes that a column of the type holds for the value.  A missing value has none. -/
def encode (value : Value) (type : DataType) : Fallible Bytes :=
  if value.isNull then .error (.type (.nullEncoding type))
  else do
    let held ← value.cast type
    match encodeCast type held with
    | some bytes => .ok bytes
    | none => .error (.type (.cannotCast held type))

/-- Refuses bytes of the wrong length for a type. -/
def checkLength (type : DataType) (expected : Nat) (bytes : Bytes) : Fallible Unit :=
  if bytes.length = expected then .ok ()
  else .error (.malformedRecord (.valueLength type.text expected bytes.length))

/-- The text that the bytes hold. -/
def decodeText (bytes : Bytes) : Fallible Value :=
  match Utf8.decode? bytes with
  | some s => .ok (text s)
  | none =>
    .error (.malformedRecord (.valueNotText ((Utf8.fault? bytes).getD (.incomplete bytes.length))))

/-- The truth value that the bytes hold. -/
def decodeBoolean : Bytes → Fallible Value
  | [0] => .ok (boolean false)
  | [1] => .ok (boolean true)
  | [other] => .error (.malformedRecord (.valueNotBoolean other.toNat))
  | bytes => .error (.malformedRecord (.valueLength (DataType.text .boolean) 1 bytes.length))

/-- The value that a column of the type holds in the bytes. -/
def decode (bytes : Bytes) (type : DataType) : Fallible Value :=
  match type with
  | .integer => do
    checkLength type 4 bytes
    return integer (Signed.wrap 64 ((Bytes.ofBigEndian bytes : Int) - Signed.half 32))
  | .bigInt => do
    checkLength type 8 bytes
    return integer (Signed.ofOffset 64 (Bytes.ofBigEndian bytes))
  | .decimal _ _ => do
    checkLength type 17 bytes
    return decimal (Signed.ofOffset 128 (Bytes.ofBigEndian (bytes.drop 1)))
      (Bytes.ofBigEndian (bytes.take 1))
  | .double => do
    checkLength type 8 bytes
    return float (Binary64.ofSortable (Bytes.ofBigEndian bytes))
  | .varchar => decodeText bytes
  | .boolean => decodeBoolean bytes

end Value

end WideRow
