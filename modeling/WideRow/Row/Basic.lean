import WideRow.Cell.Record

/-!
# Rows

A row is seen through a record, which is split into cells when they are first wanted, or through cells
held one by one.  Either way it has a key, whose place is checked when the row is made.

`Row.load` keeps the cells of a record with the row.  What is kept is always what splitting the record
gives, so `Row.cells` does not depend on it.
-/

namespace WideRow

/-- What a row is made of. -/
inductive RowShape where
  /-- A record, and its cells once they have been split. -/
  | record (region : Span)
      (index : Option { cells : List PlacedCell // Record.decode region = .ok cells })
  | cells (cells : List PlacedCell)

/-- A row of the store. -/
structure Row where
  key : Span
  shape : RowShape

namespace Row

/-- The row of the record that fills a span. -/
def ofRegion (region : Span) : Except RecordFault Row :=
  if region.buffer.length < region.limit then
    .error (.recordOutside region.offset region.length region.buffer.length)
  else
    match Record.key region with
    | .ok key => .ok ⟨key, .record region none⟩
    | .error fault => .error fault

/-- The row of a whole record. -/
def ofRecord (bytes : Bytes) : Except RecordFault Row := ofRegion (Span.whole bytes)

/-- A cell of another row than the first cell's. -/
def stray? : List PlacedCell → Option (PlacedCell × PlacedCell)
  | [] => none
  | first :: rest =>
    (rest.find? fun other => other.cell.row != first.cell.row).map fun other => (other, first)

/-- The row of some cells, which must be of one row and are put in store order. -/
def ofCells (cells : List PlacedCell) : Except RecordFault Row :=
  match stray? cells with
  | some (other, first) => .error (.strayCell other.cell.row first.cell.row)
  | none =>
    let sorted := PlacedCell.sort cells
    match Record.keyOfCells sorted with
    | .ok key => .ok ⟨key, .cells sorted⟩
    | .error fault => .error fault

/-- The row without any cells. -/
def empty : Row := ⟨Span.empty, .cells []⟩

/-- Whether the row is seen through a record. -/
def isRecord (row : Row) : Bool :=
  match row.shape with
  | .record _ _ => true
  | .cells _ => false

/-- Computes the place of the key again. -/
def locateKey (row : Row) : Except RecordFault Span :=
  match row.shape with
  | .record region _ => Record.key region
  | .cells cells => Record.keyOfCells cells

/-- The cells of the row. -/
def cells (row : Row) : Except RecordFault (List PlacedCell) :=
  match row.shape with
  | .record _ (some kept) => .ok kept.val
  | .record region none => Record.decode region
  | .cells cells => .ok cells

/-- The row with its cells kept, if the record can be split. -/
def load (row : Row) : Row :=
  match row.shape with
  | .record region none =>
    match split : Record.decode region with
    | .ok cells => { row with shape := .record region (some ⟨cells, split⟩) }
    | .error _ => row
  | _ => row

/-- The number of cells kept with the row. -/
def loaded? (row : Row) : Option Nat :=
  match row.shape with
  | .record _ index => index.map fun kept => kept.val.length
  | .cells cells => some cells.length

/-- Rows are ordered by key. -/
def order (a b : Row) : Ordering := compare a.key.bytes b.key.bytes

theorem cells_record (key region : Span)
    (index : Option { cells : List PlacedCell // Record.decode region = .ok cells }) :
    cells ⟨key, .record region index⟩ = Record.decode region := by
  cases index with
  | none => rfl
  | some kept => exact kept.property.symm

theorem cells_load (row : Row) : row.load.cells = row.cells := by
  obtain ⟨key, shape⟩ := row
  cases shape with
  | cells held => rfl
  | record region index =>
    cases index with
    | some kept => rfl
    | none =>
      simp only [load]
      split
      · rw [cells_record, cells_record]
      · rfl

end Row

end WideRow
