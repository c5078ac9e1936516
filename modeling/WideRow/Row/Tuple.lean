import WideRow.Row.Search

/-!
# Tuples

A tuple owns the record of one row as it comes off a scan.  The place of its key is checked when the
tuple is made, so seeing it as a row cannot fail.
-/

namespace WideRow

/-- The record of one row and the place of its key. -/
structure Tuple where
  bytes : Bytes
  keyOffset : Nat
  keyLength : Nat
  deriving DecidableEq

namespace Tuple

/-- The tuple of a record. -/
def ofBytes (bytes : Bytes) : Except RecordFault Tuple := do
  let row ← Row.ofRecord bytes
  return ⟨bytes, row.key.offset, row.key.length⟩

/-- The place of the key. -/
def keySpan (tuple : Tuple) : Span := ⟨tuple.bytes, tuple.keyOffset, tuple.keyLength⟩

/-- The key. -/
def key (tuple : Tuple) : Bytes := tuple.keySpan.bytes

/-- The tuple as a row. -/
def row (tuple : Tuple) : Row := ⟨tuple.keySpan, .record (Span.whole tuple.bytes) none⟩

end Tuple

end WideRow
