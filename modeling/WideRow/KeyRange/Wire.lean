import WideRow.KeyRange.Basic
import WideRow.Wire

/-!
# Wire form of key ranges

Lower bound, whether it belongs to the range, upper bound, whether it belongs to the range.
-/

namespace WideRow.KeyRange

/-- The wire form of a range. -/
def toBytes (range : KeyRange) : Bytes :=
  Wire.ofBytes range.lower ++ Wire.ofBool range.lowerInclusive ++
    Wire.ofBytes range.upper ++ Wire.ofBool range.upperInclusive

/-- Reads a range. -/
def reader : Wire.Reader KeyRange := do
  let lower ← Wire.readBytes
  let lowerInclusive ← Wire.readBool
  let upper ← Wire.readBytes
  let upperInclusive ← Wire.readBool
  return ⟨lower, lowerInclusive, upper, upperInclusive⟩

/-- The range that some bytes begin with. -/
def ofBytes (bytes : Bytes) : Fallible KeyRange := Wire.parse reader bytes

end WideRow.KeyRange
