import WideRow.Cell.Order

/-!
# Records

A record is a byte string of cells, each behind its four-byte length.  `Record.encode` writes cells in
store order; `Record.decode` splits a span of a buffer into its cells.

The key of a record, or of a single cell, is the row of the cell it begins with, behind a two-byte
length at a fixed place.
-/

namespace WideRow.Record

/-- The bytes of the length in front of each cell. -/
def prefixLength : Nat := 4

/-- A stored cell behind its length. -/
def entry (stored : Bytes) : Bytes := Bytes.bigEndian prefixLength stored.length ++ stored

/-- The record of some cells, in store order whatever order they are given in.  The cells are written,
read where they were written, sorted, and copied one behind the other. -/
def encode (cells : List Cell) : Except RecordFault Bytes := do
  let encoded ← cells.mapM Cell.encode
  let views ← encoded.mapM fun stored => PlacedCell.read (Span.whole stored)
  return (PlacedCell.sort views).flatMap fun view => entry view.span.bytes

/-- Splits bytes into cells.  The bytes are those of `buffer` from `position` on. -/
def decodeFrom (buffer : Bytes) (position : Nat) (bytes : Bytes) :
    Except RecordFault (List PlacedCell) :=
  if bytes = [] then .ok []
  else if !Bytes.atLeast prefixLength bytes then .error (.truncatedCellLength position)
  else
    let length := Bytes.ofBigEndian (bytes.take prefixLength)
    let start := position + prefixLength
    if !Bytes.atLeast (prefixLength + length) bytes then .error (.cellOverrun start length)
    else
      match Cell.decode (Bytes.slice bytes prefixLength length) with
      | .error fault => .error fault
      | .ok cell =>
        match decodeFrom buffer (start + length) (bytes.drop (prefixLength + length)) with
        | .error fault => .error fault
        | .ok rest => .ok (⟨buffer, start, cell⟩ :: rest)
termination_by bytes.length
decreasing_by
  rename_i given _ _
  have nonempty := List.length_pos_iff.mpr given
  simp only [List.length_drop, prefixLength]
  omega

/-- The cells of the record that fills a span, in the order in which they are stored. -/
def decode (region : Span) : Except RecordFault (List PlacedCell) :=
  decodeFrom region.buffer region.offset region.bytes

/-- The row behind a two-byte length that ends `lead` bytes into a span. -/
def rowAt (region : Span) (lead : Nat) : Except RecordFault Span :=
  let start := region.offset + lead
  if region.length < lead then .error (.noKeyLength region.limit start)
  else
    let signedLength :=
      (Signed.wrap 16 (Bytes.ofBigEndian (Bytes.slice region.buffer (start - 2) 2))).val
    if signedLength < 0 then .error (.negativeKeyLength signedLength)
    else
      let length := signedLength.toNat
      if region.length < lead + length then .error (.keyOverrun length start region.limit)
      else .ok ⟨region.buffer, start, length⟩

/-- The key of the record that fills a span. -/
def key (region : Span) : Except RecordFault Span :=
  rowAt region (prefixLength + Cell.headerLength + 2)

/-- The key of a row made of cells: the row of the first, or nothing. -/
def keyOfCells : List PlacedCell → Except RecordFault Span
  | [] => .ok Span.empty
  | first :: _ => rowAt first.span (Cell.headerLength + 2)

end WideRow.Record
