import WideRow.Fault.Query
import WideRow.Row.Search

/-!
# Column filters

A filter compares the latest value of one column with given bytes, as the store does during a scan.  A
row without the column passes unless the filter rejects it.
-/

namespace WideRow

/-- A comparison of one column with stored bytes. -/
structure ColumnFilter where
  family : Bytes
  qualifier : Bytes
  op : CompareOp
  value : Bytes
  rejectMissing : Bool
  deriving DecidableEq

namespace ColumnFilter

/-- Whether the filter accepts a column with the given value. -/
def acceptsValue (filter : ColumnFilter) : Option Bytes → Bool
  | some bytes => filter.op.admits (compare bytes filter.value)
  | none => !filter.rejectMissing

/-- Whether the filter accepts a row. -/
def accepts (filter : ColumnFilter) (row : Row) : Fallible Bool := do
  let found ← Fallible.ofRecord (row.columnValue filter.family filter.qualifier)
  return filter.acceptsValue found

/-- Whether every filter accepts a row; the first one that does not decides. -/
def allAccept (row : Row) : List ColumnFilter → Fallible Bool
  | [] => .ok true
  | filter :: rest => do
    if ← filter.accepts row then allAccept row rest else return false

end ColumnFilter

end WideRow
