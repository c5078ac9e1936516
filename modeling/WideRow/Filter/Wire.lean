import WideRow.Filter.Basic
import WideRow.Wire

/-!
# Wire form of column filters

Family, qualifier, comparison, value, whether a row without the column is rejected.
-/

namespace WideRow.ColumnFilter

/-- The wire form of a filter. -/
def toBytes (filter : ColumnFilter) : Bytes :=
  Wire.ofBytes filter.family ++ Wire.ofBytes filter.qualifier ++
    Wire.ofVariant filter.op.index ++ Wire.ofBytes filter.value ++
    Wire.ofBool filter.rejectMissing

/-- Reads a filter. -/
def reader : Wire.Reader ColumnFilter := do
  let family ← Wire.readBytes
  let qualifier ← Wire.readBytes
  let op ← Wire.readCompareOp
  let value ← Wire.readBytes
  let rejectMissing ← Wire.readBool
  return ⟨family, qualifier, op, value, rejectMissing⟩

/-- The filter that some bytes begin with. -/
def ofBytes (bytes : Bytes) : Fallible ColumnFilter := Wire.parse reader bytes

end WideRow.ColumnFilter
