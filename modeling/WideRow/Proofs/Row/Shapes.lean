import WideRow.Proofs.Cell.Record
import WideRow.Proofs.Expr.Columns

/-!
# The two shapes of a row

A row shows a key and some contents, whatever it is made of and wherever its cells lie.  What is found
in a row, and with it the value of an expression on it, depends on what the row shows only
(`Row.Shows.lookup`, `Row.Shows.evaluate_eq`).  A record of cells and the same cells held one by one show
the same row.
-/

namespace WideRow

/-! ### What a row shows -/

/-- The cell at the place of a term, if it is of the term's column. -/
def Cell.findIn (cells : List Cell) (term : SearchTerm) : Option Cell := do
  let found ← cells[Search.position (fun cell => Cell.orderToTerm cell term) cells]?
  if found.inColumn term.family term.qualifier then some found else none

theorem Search.position_map {α β : Type} (toTarget : β → Ordering) (f : α → β) (items : List α) :
    position toTarget (items.map f) = position (fun item => toTarget (f item)) items := by
  have after : (fun i : Nat => ((items.map f)[i]?).any fun item => toTarget item == .gt) =
      fun i => (items[i]?).any fun item => toTarget (f item) == .gt := by
    funext i
    rw [List.getElem?_map, Option.any_map]
  simp only [position, List.length_map]
  rw [after, List.getElem?_map]
  cases items[narrow (fun i => (items[i]?).any fun item => toTarget (f item) == .gt) 0
    items.length]? with
  | none => rfl
  | some item => rfl

namespace Row

theorem map_cell_findIn (cells : List PlacedCell) (term : SearchTerm) :
    (findIn cells term).map PlacedCell.cell = Cell.findIn (cells.map PlacedCell.cell) term := by
  rw [findIn, Cell.findIn, Search.position_map, List.getElem?_map]
  cases cells[Search.position (fun placed => Cell.orderToTerm placed.cell term) cells]? with
  | none => rfl
  | some found =>
    simp only [Option.map_some, Option.bind_eq_bind, Option.bind_some]
    split <;> rfl

/-- The key of a row, and what its cells hold in the order in which the row gives them. -/
structure Shows (row : Row) (key : Bytes) (contents : List Cell) : Prop where
  key_eq : row.key.bytes = key
  cells_eq : (row.cells.map fun cells => cells.map PlacedCell.cell) = .ok contents

namespace Shows

variable {row other : Row} {key : Bytes} {contents : List Cell}

theorem lookup (shows : row.Shows key contents) (family qualifier : Bytes) :
    ((row.lookup family qualifier).map fun found => found.map PlacedCell.cell) =
      .ok (Cell.findIn contents ⟨key, family, qualifier⟩) := by
  have held := shows.cells_eq
  rw [Row.lookup, Row.find, Row.term, shows.key_eq]
  cases split : row.cells with
  | error fault =>
    rw [split] at held
    cases held
  | ok cells =>
    rw [split] at held
    injection held with held
    rw [← held, ← map_cell_findIn]
    rfl

theorem columnValue (shows : row.Shows key contents) (family qualifier : Bytes) :
    row.columnValue family qualifier =
      .ok ((Cell.findIn contents ⟨key, family, qualifier⟩).map Cell.value) := by
  have found := shows.lookup family qualifier
  rw [Row.columnValue]
  cases looked : row.lookup family qualifier with
  | error fault =>
    rw [looked] at found
    cases found
  | ok placed =>
    rw [looked] at found
    injection found with found
    rw [← found, Option.map_map]
    rfl

/-- Rows that show the same cannot be told apart by an expression. -/
theorem evaluate_eq (left : row.Shows key contents) (right : other.Shows key contents) (e : Expr) :
    e.evaluate row = e.evaluate other := by
  refine Expr.evaluate_congr fun c _ => ?_
  rw [left.columnValue, right.columnValue]

theorem evaluatePredicate_eq (left : row.Shows key contents) (right : other.Shows key contents)
    (e : Expr) : e.evaluatePredicate row = e.evaluatePredicate other := by
  rw [Expr.evaluatePredicate, Expr.evaluatePredicate, left.evaluate_eq right]

end Shows

/-! ### The two shapes -/

/-- The cells of a row: there are some, they are of the row, and they can be put in a record. -/
structure CellsOf (key : Bytes) (cells : List Cell) : Prop where
  nonempty : cells ≠ []
  row : ∀ cell ∈ cells, cell.row = key
  enterable : ∀ cell ∈ cells, Record.Enterable cell

theorem CellsOf.mergeSort {key : Bytes} {cells : List Cell} (given : CellsOf key cells) :
    CellsOf key (cells.mergeSort Cell.precedes) where
  nonempty := by
    intro none
    have length : (cells.mergeSort Cell.precedes).length = cells.length :=
      List.length_mergeSort cells
    rw [none] at length
    exact given.nonempty (List.eq_nil_of_length_eq_zero length.symm)
  row cell member := given.row cell (List.mem_mergeSort.mp member)
  enterable cell member := given.enterable cell (List.mem_mergeSort.mp member)

theorem ofRegion_eq_ok {region : Span} {row : Row} :
    ofRegion region = .ok row ↔ region.limit ≤ region.buffer.length ∧
      Record.key region = .ok row.key ∧ row.shape = .record region none := by
  rw [ofRegion]
  by_cases outside : region.buffer.length < region.limit
  · rw [if_pos outside]
    exact iff_of_false nofun fun ⟨inside, _⟩ => Nat.not_lt.mpr inside outside
  rw [if_neg outside]
  cases Record.key region with
  | error fault => exact iff_of_false nofun fun ⟨_, found, _⟩ => nomatch found
  | ok key =>
    constructor
    · intro made
      injection made with made
      rw [← made]
      exact ⟨Nat.le_of_not_lt outside, rfl, rfl⟩
    · intro ⟨_, found, shape⟩
      obtain ⟨_, _⟩ := row
      injection found with found
      simp only at found shape
      simp only [found, shape]

/-- A record of cells in any order is a row that shows them in that order. -/
theorem ofRecord_entries {key : Bytes} {cells : List Cell} (given : CellsOf key cells) :
    ∃ row, ofRecord (cells.flatMap fun cell => Record.entry cell.bytes) = .ok row ∧
      row.Shows key cells := by
  have split := Record.decode_entries given.enterable
  have located : ∃ span, Record.key (Span.whole (cells.flatMap fun cell => Record.entry cell.bytes)) =
      .ok span ∧ span.bytes = key := by
    cases cells with
    | nil => exact absurd rfl given.nonempty
    | cons first rest =>
      rw [← given.row first List.mem_cons_self, List.flatMap_cons]
      exact Record.key_entry (given.enterable first List.mem_cons_self).encodable _
  obtain ⟨span, found, same⟩ := located
  generalize (cells.flatMap fun cell => Record.entry cell.bytes) = bytes at split found ⊢
  have made : ofRegion (Span.whole bytes) = .ok ⟨span, .record (Span.whole bytes) none⟩ :=
    ofRegion_eq_ok.mpr ⟨Nat.le_of_eq (Nat.zero_add _), found, rfl⟩
  refine ⟨_, made, same, ?_⟩
  rw [cells_record, split]
  exact congrArg Except.ok (Record.map_cell_placesFrom _ 0 cells)

theorem stray?_eq_none (key : Bytes) {cells : List PlacedCell}
    (row : ∀ placed ∈ cells, placed.cell.row = key) : stray? cells = none := by
  cases cells with
  | nil => rfl
  | cons first rest =>
    rw [stray?, Option.map_eq_none_iff, List.find?_eq_none]
    intro other member
    rw [row first List.mem_cons_self, row other (List.mem_cons_of_mem _ member), bne_self_eq_false]
    exact Bool.false_ne_true

/-- Cells of one row that lie by themselves make a row that shows them in store order. -/
theorem ofCells_alone {key : Bytes} {cells : List Cell} (given : CellsOf key cells) :
    ∃ row, ofCells (cells.map PlacedCell.alone) = .ok row ∧
      row.Shows key (cells.mergeSort Cell.precedes) := by
  have together : stray? (cells.map PlacedCell.alone) = none := by
    refine stray?_eq_none key fun placed member => ?_
    obtain ⟨cell, inside, same⟩ := List.mem_map.mp member
    rw [← same]
    exact given.row cell inside
  have located : ∃ span, Record.keyOfCells (PlacedCell.sort (cells.map PlacedCell.alone)) =
      .ok span ∧ span.bytes = key := by
    have sorted := given.mergeSort
    rw [PlacedCell.sort_map_alone]
    cases order : cells.mergeSort Cell.precedes with
    | nil => exact absurd order sorted.nonempty
    | cons first rest =>
      rw [order] at sorted
      rw [← sorted.row first List.mem_cons_self]
      exact Record.keyOfCells_alone (sorted.enterable first List.mem_cons_self).encodable _
  obtain ⟨span, found, same⟩ := located
  refine ⟨⟨span, .cells (PlacedCell.sort (cells.map PlacedCell.alone))⟩, ?_, same, ?_⟩
  · rw [ofCells, together]
    simp only [found]
  · have contents : (PlacedCell.sort (cells.map PlacedCell.alone)).map PlacedCell.cell =
        cells.mergeSort Cell.precedes := by
      rw [PlacedCell.map_cell_sort, PlacedCell.map_cell_alone]
    exact congrArg Except.ok contents

/-- What holds of two rows that are made from the same cells in different ways. -/
structure Interchangeable (key : Bytes) (given sorted : List Cell) (scanned assembled : Row) :
    Prop where
  scanned_shows : scanned.Shows key sorted
  assembled_shows : assembled.Shows key sorted
  stable : Cell.IsStableSort given sorted
  lookup : ∀ family qualifier, ∃ found : Option Cell,
    ((scanned.lookup family qualifier).map fun placed => placed.map PlacedCell.cell) = .ok found ∧
    ((assembled.lookup family qualifier).map fun placed => placed.map PlacedCell.cell) = .ok found
  evaluate : ∀ e : Expr, e.evaluate scanned = e.evaluate assembled
  evaluatePredicate : ∀ e : Expr, e.evaluatePredicate scanned = e.evaluatePredicate assembled

/-- The row of a record of cells and the row of the cells by themselves, each written and read back, are
made without fault and cannot be told apart by what they show: both have the key of the cells and the
cells in store order, those that compare equal as they were given. -/
theorem shapes_interchangeable {key : Bytes} {cells : List Cell} (given : CellsOf key cells) :
    ∃ record scanned placed assembled sorted,
      Record.encode cells = .ok record ∧ ofRecord record = .ok scanned ∧
      cells.mapM PlacedCell.standalone = .ok placed ∧ ofCells placed = .ok assembled ∧
      Interchangeable key cells sorted scanned assembled := by
  have encodable : ∀ cell ∈ cells, cell.Encodable :=
    fun cell member => (given.enterable cell member).encodable
  obtain ⟨scanned, scan, left⟩ := ofRecord_entries given.mergeSort
  obtain ⟨assembled, assembly, right⟩ := ofCells_alone given
  refine ⟨_, scanned, _, assembled, cells.mergeSort Cell.precedes, Record.encode_eq_ok encodable, scan,
    PlacedCell.mapM_standalone encodable, assembly, left, right, Cell.isStableSort_mergeSort cells, ?_,
    left.evaluate_eq right, left.evaluatePredicate_eq right⟩
  intro family qualifier
  exact ⟨_, left.lookup family qualifier, right.lookup family qualifier⟩

/-- A version of a column of one row, with one byte for its value. -/
def version (qualifier : UInt8) (timestamp : Timestamp) (kind : CellType) (value : UInt8) : Cell :=
  ⟨[114], [102], [qualifier], timestamp, kind.code, [value]⟩

/-- Versions out of order, with a deletion, two of one moment and one that stands twice. -/
def versions : List Cell :=
  [version 98 (Signed.zero 64) .put 1, version 97 (Signed.zero 64) .put 2,
    version 97 (Signed.greatest 64) .delete 0, version 97 (Signed.zero 64) .put 3,
    version 97 (Signed.zero 64) .put 2]

theorem enterable_version (qualifier : UInt8) (timestamp : Timestamp) (kind : CellType)
    (value : UInt8) : Record.Enterable (version qualifier timestamp kind value) where
  encodable := ⟨Nat.le_of_ble_eq_true rfl, Nat.le_of_ble_eq_true rfl, Nat.le_of_ble_eq_true rfl,
    Nat.le_of_ble_eq_true rfl⟩
  short := Nat.le_of_ble_eq_true rfl

theorem cellsOf_versions : CellsOf [114] versions where
  nonempty := List.cons_ne_nil _ _
  row := by simp only [versions, version, List.forall_mem_cons, List.not_mem_nil, false_implies,
    implies_true, and_self]
  enterable := by simp only [versions, enterable_version, List.forall_mem_cons, List.not_mem_nil,
    false_implies, implies_true, and_self]

theorem shapes_interchangeable_versions :
    CellsOf [114] versions ∧ ∃ record scanned placed assembled sorted,
      Record.encode versions = .ok record ∧ ofRecord record = .ok scanned ∧
      versions.mapM PlacedCell.standalone = .ok placed ∧ ofCells placed = .ok assembled ∧
      Interchangeable [114] versions sorted scanned assembled :=
  ⟨cellsOf_versions, shapes_interchangeable cellsOf_versions⟩

end Row

end WideRow
