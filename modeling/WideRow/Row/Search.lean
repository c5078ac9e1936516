import WideRow.Row.Basic

/-!
# Columns of a row

A column is found by binary search for the first cell that does not come before its search term.  The
search halves a window of positions; it looks at the last position left and decides on which side of
it the term belongs.
-/

namespace WideRow

namespace Search

/-- Halves the window of `size` positions from `base` on until one is left.  The window keeps its
lower part where the position in the middle lies after the target. -/
def narrow (isAfter : Nat → Bool) (base size : Nat) : Nat :=
  if size ≤ 1 then base
  else
    let half := size / 2
    let middle := base + half
    narrow isAfter (if isAfter middle then base else middle) (size - half)
termination_by size
decreasing_by omega

/-- Where a target belongs among items in order, given how each of them compares to it: at a position
that compares equal, or else at the one before which it would be inserted. -/
def position {α : Type} (toTarget : α → Ordering) (items : List α) : Nat :=
  let isAfter := fun i => (items[i]?).any fun item => toTarget item == .gt
  let last := narrow isAfter 0 items.length
  match items[last]? with
  | none => 0
  | some item => if toTarget item = .lt then last + 1 else last

end Search

namespace Row

/-- The search term of a column of the row. -/
def term (row : Row) (family qualifier : Bytes) : SearchTerm := ⟨row.key.bytes, family, qualifier⟩

/-- The cell at the place of the term, if it is of the term's column. -/
def findIn (cells : List PlacedCell) (term : SearchTerm) : Option PlacedCell := do
  let found ← cells[Search.position (fun placed => Cell.orderToTerm placed.cell term) cells]?
  if found.cell.inColumn term.family term.qualifier then some found else none

/-- The latest cell of the column that a term names. -/
def find (row : Row) (term : SearchTerm) : Except RecordFault (Option PlacedCell) := do
  let cells ← row.cells
  return findIn cells term

/-- The latest cell of a column of the row. -/
def lookup (row : Row) (family qualifier : Bytes) : Except RecordFault (Option PlacedCell) :=
  row.find (row.term family qualifier)

/-- The value of the latest cell of a column of the row. -/
def columnValue (row : Row) (family qualifier : Bytes) : Except RecordFault (Option Bytes) := do
  let found ← row.lookup family qualifier
  return found.map fun placed => placed.cell.value

end Row

end WideRow
