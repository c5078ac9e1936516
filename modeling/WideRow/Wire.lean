import WideRow.Bytes.Endian
import WideRow.Fault.Query

/-!
# Wire form

How filters and key ranges travel to the store.  Numbers have a fixed width, least significant byte
first; a byte string follows its length of eight bytes; a truth value is one byte; a choice is the
four-byte number of its variant.  A reader takes what it needs from the front and leaves the rest, so
bytes may follow a value.
-/

namespace WideRow.Wire

/-- Reads a value from the front of some bytes. -/
abbrev Reader := StateT Bytes (Except WireFault)

/-! ### Writing -/

/-- A byte string behind its length. -/
def ofBytes (bytes : Bytes) : Bytes := Bytes.littleEndian 8 bytes.length ++ bytes

/-- A truth value. -/
def ofBool (b : Bool) : Bytes := [if b then 1 else 0]

/-- A choice, by the number of its variant. -/
def ofVariant (index : Nat) : Bytes := Bytes.littleEndian 4 index

/-! ### Reading -/

/-- The given number of bytes. -/
def take (count : Nat) : Reader Bytes := fun input =>
  if input.length < count then .error .endOfInput
  else .ok (input.take count, input.drop count)

/-- A number of the given width. -/
def readNat (width : Nat) : Reader Nat := do
  let bytes ← take width
  return Bytes.ofLittleEndian bytes

/-- A byte string behind its length. -/
def readBytes : Reader Bytes := do
  let length ← readNat 8
  take length

/-- A truth value. -/
def readBool : Reader Bool := do
  match ← readNat 1 with
  | 0 => return false
  | 1 => return true
  | other => throw (.badBoolean other)

/-- A comparison. -/
def readCompareOp : Reader CompareOp := do
  let index ← readNat 4
  match CompareOp.ofIndex? index with
  | some op => return op
  | none => throw (.badVariant index)

/-- Reads a value from the front of some bytes and ignores the rest. -/
def parse {α : Type} (reader : Reader α) (bytes : Bytes) : Fallible α :=
  match reader bytes with
  | .ok (a, _) => .ok a
  | .error cause => .error (.serialization cause)

end WideRow.Wire
