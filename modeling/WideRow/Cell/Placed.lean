import WideRow.Cell.Basic
import WideRow.Text.Quoted

/-!
# Cells in a buffer

A cell together with the place of its stored form in a buffer.  The places of its parts follow from
their lengths.  `PlacedCell.read` reads the cell that fills a span of the buffer.
-/

namespace WideRow

/-- A cell and where its stored form starts. -/
structure PlacedCell where
  buffer : Bytes
  offset : Nat
  cell : Cell
  deriving DecidableEq

namespace PlacedCell

/-- Reads the cell that fills a span. -/
def read (span : Span) : Except RecordFault PlacedCell :=
  if span.buffer.length < span.limit then
    .error (.cellOutside span.offset span.length span.buffer.length)
  else
    match Cell.decode span.bytes with
    | .ok cell => .ok ⟨span.buffer, span.offset, cell⟩
    | .error fault => .error fault

/-- Writes a cell to a buffer of its own and reads it there. -/
def standalone (cell : Cell) : Except RecordFault PlacedCell := do
  let stored ← cell.encode
  read (Span.whole stored)

/-- The length of the stored form. -/
def length (placed : PlacedCell) : Nat := placed.cell.encodedLength

/-- The span of the stored form. -/
def span (placed : PlacedCell) : Span := ⟨placed.buffer, placed.offset, placed.length⟩

/-- Where the key starts. -/
def keyOffset (placed : PlacedCell) : Nat := placed.offset + Cell.headerLength

/-- Where the row starts. -/
def rowOffset (placed : PlacedCell) : Nat := placed.keyOffset + 2

/-- Where the family starts. -/
def familyOffset (placed : PlacedCell) : Nat := placed.rowOffset + placed.cell.row.length + 1

/-- Where the qualifier starts. -/
def qualifierOffset (placed : PlacedCell) : Nat :=
  placed.familyOffset + placed.cell.family.length

/-- Where the timestamp starts. -/
def timestampOffset (placed : PlacedCell) : Nat := placed.keyOffset + placed.cell.keyLength - 9

/-- Where the type is. -/
def typeOffset (placed : PlacedCell) : Nat := placed.timestampOffset + 8

/-- Where the value starts. -/
def valueOffset (placed : PlacedCell) : Nat := placed.keyOffset + placed.cell.keyLength

/-- The diagnostic text of a cell. -/
def diagnostic (placed : PlacedCell) : String :=
  let cell := placed.cell
  let row := Quoted.escape cell.row.hex
  let family := Quoted.escape (Utf8.lossy cell.family)
  let qualifier := Quoted.escape (Utf8.lossy cell.qualifier)
  s!"Cell \x7b row: {row}, family: {family}, qualifier: {qualifier}, " ++
    s!"timestamp: {cell.timestamp.val}, type: {cell.typeCode.toNat}, " ++
    s!"value_length: {cell.value.length} \x7d"

end PlacedCell

end WideRow
