import WideRow.Cell.Placed

/-!
# Store order

Cells are ordered by row, family and qualifier, then from the newest version to the oldest and from
the greatest type to the least.  A search term stands for the cell of its column that comes first: the
one with the latest timestamp and the greatest type.
-/

namespace WideRow

/-- A column of a row, as the target of a search. -/
structure SearchTerm where
  row : Bytes
  family : Bytes
  qualifier : Bytes
  deriving DecidableEq

/-- The cell that a search term stands for. -/
def SearchTerm.firstCell (term : SearchTerm) : Cell where
  row := term.row
  family := term.family
  qualifier := term.qualifier
  timestamp := Signed.greatest 64
  typeCode := CellType.maximum.code
  value := []

namespace Cell

/-- The store order of two cells. -/
def order (a b : Cell) : Ordering :=
  (compare a.row b.row).then <|
    (compare a.family b.family).then <|
      (compare a.qualifier b.qualifier).then <|
        (compare b.timestamp.val a.timestamp.val).then <|
          compare b.typeCode.toNat a.typeCode.toNat

/-- The order of a cell and a search term, which is as late and of as great a type as a cell can be. -/
def orderToTerm (cell : Cell) (term : SearchTerm) : Ordering :=
  (compare cell.row term.row).then <|
    (compare cell.family term.family).then <|
      (compare cell.qualifier term.qualifier).then <|
        (compare (Signed.greatest 64).val cell.timestamp.val).then <|
          compare CellType.maximum.code.toNat cell.typeCode.toNat

theorem orderToTerm_eq_order (cell : Cell) (term : SearchTerm) :
    orderToTerm cell term = order cell term.firstCell := rfl

/-- Whether one cell may stand before another in store order. -/
def precedes (a b : Cell) : Bool := order a b != .gt

end Cell

namespace PlacedCell

/-- Cells put in store order; cells that compare equal keep their places. -/
def sort (cells : List PlacedCell) : List PlacedCell :=
  cells.mergeSort fun a b => Cell.precedes a.cell b.cell

end PlacedCell

end WideRow
