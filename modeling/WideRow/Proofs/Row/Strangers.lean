import WideRow.Proofs.Row.Lookup
import WideRow.Proofs.Row.Splitting

/-!
# Cells of other rows in a record

The key of a record is the row of its first cell.  Nothing keeps cells of other rows out of a record, and a
lookup asks the cell at which its search arrives for the column only.  In store order the other rows come
behind the row of the key, so the search arrives at one of their cells exactly if it passes all cells of
the row (`Row.Exposed`), and then a lookup returns that cell if it is of the column.

* `Row.key_notAfter` : no cell of a record is of a row before its key.
* `Cell.orderToTerm_eq_lt` : of the cells of the row, the search passes those of the columns before.
* `Row.exposed_of_findIn`, `Row.findIn_of_exposed` : where the search arrives at a cell of another row.
* `Row.lookup_stranger_iff` : when a lookup returns a cell of another row.
-/

namespace WideRow

/-! ### Cells of the row and cells behind it -/

namespace Cell

/-- The cell is of a column before the given one. -/
def BeforeColumn (cell : Cell) (family qualifier : Bytes) : Prop :=
  (compare cell.family family).then (compare cell.qualifier qualifier) = .lt

/-- Among the cells of the term's row the columns decide first. -/
theorem orderToTerm_of_row {cell : Cell} {term : SearchTerm} (row : cell.row = term.row) :
    orderToTerm cell term =
      ((compare cell.family term.family).then (compare cell.qualifier term.qualifier)).then
        ((compare term.firstCell.timestamp.val cell.timestamp.val).then
          (compare term.firstCell.typeCode.toNat cell.typeCode.toNat)) := by
  have same : compare cell.row term.firstCell.row = .eq := by
    rw [row]
    exact Std.compare_self
  rw [orderToTerm_eq_order, order, same, Ordering.eq_then, Ordering.then_assoc]
  rfl

theorem orderToTerm_eq_lt {cell : Cell} {term : SearchTerm} (row : cell.row = term.row) :
    orderToTerm cell term = .lt ↔ cell.BeforeColumn term.family term.qualifier := by
  constructor
  · intro less
    have decided := less
    rw [orderToTerm_of_row row, Ordering.then_eq_lt] at decided
    rcases decided with before | ⟨column, _⟩
    · exact before
    · obtain ⟨family, qualifier⟩ := Ordering.then_eq_eq.mp column
      exact absurd less (orderToTerm_ne_lt row (Std.LawfulEqOrd.eq_of_compare family)
        (Std.LawfulEqOrd.eq_of_compare qualifier))
  · intro before
    rw [orderToTerm_of_row row, Ordering.then_eq_lt]
    exact .inl before

/-- A cell that is not after another one is not of a later row. -/
theorem row_notAfter {a b : Cell} (notAfter : order a b ≠ .gt) : compare a.row b.row ≠ .gt := by
  intro after
  rw [order, after] at notAfter
  exact notAfter rfl

end Cell

namespace Row

open PlacedCell

variable {cells : List PlacedCell}

/-- No cell of a record in store order is of a row before its key. -/
theorem key_notAfter {region : Span} {row : Row} (made : ofRegion region = .ok row)
    (parsed : row.cells = .ok cells) (ordered : InStoreOrder cells) :
    ∀ placed ∈ cells, compare row.key.bytes placed.cell.row ≠ .gt := by
  obtain ⟨inside, key, shape⟩ := ofRegion_eq_ok.mp made
  rw [Row.cells, shape] at parsed
  have long := (Record.room_of_rowAt key).1
  have nonempty : region.offset < region.limit :=
    Nat.lt_add_of_pos_right (Nat.lt_of_lt_of_le (by decide) long)
  obtain ⟨first, others, same, entry⟩ :=
    ((Record.decode_eq_ok inside).mp parsed).exists_first nonempty
  have place : row.key.bytes = first.cell.row := by
    rw [Except.ok.inj (key.symm.trans entry.key)]
    exact entry.row
  rw [same] at ordered ⊢
  rw [place]
  refine List.forall_mem_cons.mpr ⟨?_, ?_⟩
  · rw [Std.compare_self]
    decide
  · intro placed member
    exact Cell.row_notAfter ((List.pairwise_cons.mp ordered).1 placed member)

/-- What the search for a term arrives at. -/
theorem finds_place (ordered : InStoreOrder cells) (term : SearchTerm) :
    Search.Finds (fun placed : PlacedCell => Cell.orderToTerm placed.cell term) cells
      (place cells term) :=
  Search.finds_position (ordered.ascending term)

/-- All cells of the row are of columns before the given one, and the next cell, a stranger to the row, is
of that column. -/
def Exposed (cells : List PlacedCell) (key family qualifier : Bytes) (stranger : PlacedCell) : Prop :=
  ∃ own later, cells = own ++ stranger :: later ∧
    (∀ placed ∈ own, placed.cell.row = key ∧ placed.cell.BeforeColumn family qualifier) ∧
    stranger.cell.row ≠ key ∧ stranger.cell.inColumn family qualifier = true

theorem exposed_of_findIn {term : SearchTerm} {stranger : PlacedCell} (ordered : InStoreOrder cells)
    (least : ∀ placed ∈ cells, compare term.row placed.cell.row ≠ .gt)
    (found : findIn cells term = some stranger) (other : stranger.cell.row ≠ term.row) :
    Exposed cells term.row term.family term.qualifier stranger := by
  obtain ⟨here, inColumn⟩ := findIn_eq_some.mp found
  have finds := finds_place ordered term
  obtain ⟨inside, same⟩ := List.getElem?_eq_some_iff.mp here
  have parts : cells = cells.take (place cells term) ++ stranger :: cells.drop (place cells term + 1) := by
    rw [← same, ← List.drop_eq_getElem_cons, List.take_append_drop]
  refine ⟨_, _, parts, ?_, other, inColumn⟩
  intro placed member
  obtain ⟨i, bound, same'⟩ := List.mem_take_iff_getElem.mp member
  have stored : cells[i]? = some placed := List.getElem?_eq_some_iff.mpr ⟨by omega, same'⟩
  have among : placed ∈ cells := List.mem_of_getElem? stored
  -- what the search has passed is before the term: a cell that stands for the term would be found
  have less : Cell.orderToTerm placed.cell term = .lt := by
    cases order : Cell.orderToTerm placed.cell term with
    | lt => rfl
    | eq =>
      obtain ⟨hit, there, equal⟩ := finds.hit placed among order
      have hitSame : stranger = hit := Option.some.inj (here.symm.trans there)
      rw [← hitSame] at equal
      exact absurd (Cell.orderToTerm_eq_eq.mp equal).row other
    | gt => exact absurd order (finds.before i placed stored (by omega))
  have notAfter : compare placed.cell.row term.row ≠ .gt := by
    have notAfterTerm : Cell.order placed.cell term.firstCell ≠ .gt := by
      rw [show Cell.order placed.cell term.firstCell = .lt from less]
      decide
    exact Cell.row_notAfter notAfterTerm
  have row : placed.cell.row = term.row := by
    cases order : compare placed.cell.row term.row with
    | lt => exact absurd (Std.OrientedCmp.gt_iff_lt.mpr order) (least placed among)
    | eq => exact Std.LawfulEqOrd.eq_of_compare order
    | gt => exact absurd order notAfter
  exact ⟨row, (Cell.orderToTerm_eq_lt row).mp less⟩

theorem findIn_of_exposed {term : SearchTerm} {stranger : PlacedCell} (ordered : InStoreOrder cells)
    (least : ∀ placed ∈ cells, compare term.row placed.cell.row ≠ .gt)
    (exposed : Exposed cells term.row term.family term.qualifier stranger) :
    findIn cells term = some stranger := by
  obtain ⟨own, later, parts, passed, other, inColumn⟩ := exposed
  have finds := finds_place ordered term
  have here : cells[own.length]? = some stranger := by
    rw [parts]
    simp
  have after : Cell.orderToTerm stranger.cell term = .gt := by
    have row : compare stranger.cell.row term.firstCell.row = .gt := by
      apply Std.OrientedCmp.gt_iff_lt.mpr
      cases order : compare term.row stranger.cell.row with
      | lt => exact order
      | eq => exact absurd (Std.LawfulEqOrd.eq_of_compare order).symm other
      | gt => exact absurd order (least stranger (List.mem_of_getElem? here))
    rw [Cell.orderToTerm_eq_order, Cell.order, row]
    rfl
  have arrives : place cells term = own.length := by
    rcases Nat.lt_trichotomy (place cells term) own.length with early | there | late
    · have stored : own[place cells term]? = some own[place cells term] :=
        List.getElem?_eq_getElem early
      obtain ⟨row, before⟩ := passed _ (List.getElem_mem early)
      rw [← List.getElem?_append_left early, ← parts] at stored
      exact absurd ((Cell.orderToTerm_eq_lt row).mpr before)
        (finds.onward _ _ stored (Nat.le_refl _))
    · exact there
    · exact absurd after (finds.before _ _ here late)
  rw [← arrives] at here
  exact findIn_eq_some.mpr ⟨here, inColumn⟩

/-- **A lookup returns a cell of another row exactly if its search passes the whole row.**  Take a record
whose cells are in store order.  Every lookup has an answer.  It is a cell of another row than that of the
key if and only if all cells of the row are of columns before the one that is looked for and the cell behind
them is of that column, and then it is this cell.  So no lookup does that in a record of cells of one row. -/
theorem lookup_stranger_iff {record : Bytes} {row : Row} (made : ofRecord record = .ok row)
    (parsed : row.cells = .ok cells) (ordered : InStoreOrder cells) (family qualifier : Bytes) :
    (∃ found, row.lookup family qualifier = .ok found) ∧
    (∀ stranger,
      (row.lookup family qualifier = .ok (some stranger) ∧ stranger.cell.row ≠ row.key.bytes) ↔
        Exposed cells row.key.bytes family qualifier stranger) ∧
    ((∀ placed ∈ cells, placed.cell.row = row.key.bytes) → ∀ found,
      row.lookup family qualifier = .ok (some found) → found.cell.row = row.key.bytes) := by
  have least := key_notAfter made parsed ordered
  have answer : row.lookup family qualifier = .ok (findIn cells (row.term family qualifier)) := by
    rw [lookup, find, parsed]
    rfl
  have strange : ∀ stranger,
      (row.lookup family qualifier = .ok (some stranger) ∧ stranger.cell.row ≠ row.key.bytes) ↔
        Exposed cells row.key.bytes family qualifier stranger := by
    intro stranger
    rw [answer]
    constructor
    · rintro ⟨found, other⟩
      injection found with found
      exact exposed_of_findIn ordered least found other
    · intro exposed
      have found : findIn cells (row.term family qualifier) = some stranger :=
        findIn_of_exposed ordered least exposed
      obtain ⟨_, _, _, _, other, _⟩ := exposed
      exact ⟨congrArg Except.ok found, other⟩
  refine ⟨⟨_, answer⟩, strange, ?_⟩
  intro oneRow found held
  by_contra other
  obtain ⟨own, later, parts, _⟩ := (strange found).mp ⟨held, other⟩
  have member : found ∈ cells := by
    rw [parts]
    simp
  exact other (oneRow found member)

/-- A cell of a row and one of the next row, in the next column. -/
def neighbours : List Cell :=
  [⟨[97], [102], [97], Signed.zero 64, 4, [1]⟩, ⟨[98], [102], [98], Signed.zero 64, 4, [2]⟩]

/-- The record that is written for these cells. -/
def neighbourRecord : Bytes := neighbours.flatMap fun cell => Record.entry cell.bytes

/-- The row of this record. -/
def neighbourRow : Row :=
  ⟨⟨neighbourRecord, 14, 1⟩, .record (Span.whole neighbourRecord) none⟩

/-- The cells of this record, where they are. -/
def neighbourCells : List PlacedCell := Record.placesFrom neighbourRecord 0 neighbours

theorem encode_neighbours : Record.encode neighbours = .ok neighbourRecord := by
  have encodable : ∀ cell ∈ neighbours, cell.Encodable := by
    refine List.forall_mem_cons.mpr ⟨?_, List.forall_mem_singleton.mpr ?_⟩
    · exact ⟨by decide, by decide, by decide, by decide⟩
    · exact ⟨by decide, by decide, by decide, by decide⟩
  rw [Record.encode_eq_ok encodable, List.mergeSort_of_pairwise (by decide)]
  rfl

theorem made_neighbourRow : ofRecord neighbourRecord = .ok neighbourRow := rfl

theorem cells_neighbourRow : neighbourRow.cells = .ok neighbourCells := by decide +kernel

theorem inStoreOrder_neighbourCells : InStoreOrder neighbourCells := by
  unfold InStoreOrder
  decide +kernel

theorem lookup_neighbourRow : neighbourRow.lookup [102] [98] =
    .ok (some ⟨neighbourRecord, 32, ⟨[98], [102], [98], Signed.zero 64, 4, [2]⟩⟩) := by
  decide +kernel

theorem key_neighbourRow : neighbourRow.key.bytes = [97] := by decide

/-- The first of the two columns is passed on the way to the second one, which the row does not have.  The
column behind that is found nowhere. -/
theorem lookup_stranger_iff_neighbours :
    ofRecord neighbourRecord = .ok neighbourRow ∧ neighbourRow.cells = .ok neighbourCells ∧
      InStoreOrder neighbourCells ∧
      (∃ stranger, Exposed neighbourCells neighbourRow.key.bytes [102] [98] stranger) ∧
        ∀ stranger, ¬ Exposed neighbourCells neighbourRow.key.bytes [102] [99] stranger := by
  have strange := fun family qualifier => (lookup_stranger_iff made_neighbourRow
    cells_neighbourRow inStoreOrder_neighbourCells family qualifier).2.1
  have different : ([98] : Bytes) ≠ neighbourRow.key.bytes := by
    rw [key_neighbourRow]
    decide
  have absent : neighbourRow.lookup [102] [99] = .ok none := by decide +kernel
  refine ⟨made_neighbourRow, cells_neighbourRow, inStoreOrder_neighbourCells,
    ⟨_, (strange [102] [98] _).mp ⟨lookup_neighbourRow, different⟩⟩, ?_⟩
  intro stranger exposed
  obtain ⟨found, _⟩ := (strange [102] [99] stranger).mpr exposed
  rw [absent] at found
  cases found

/-- A record that can be written is accepted and in store order, and yet a lookup in it returns a cell of
another row. -/
theorem stranger_returned :
    Record.encode neighbours = .ok neighbourRecord ∧
      ofRecord neighbourRecord = .ok neighbourRow ∧ neighbourRow.cells = .ok neighbourCells ∧
      InStoreOrder neighbourCells ∧
      ¬ ∀ family qualifier found, neighbourRow.lookup family qualifier = .ok (some found) →
        found.cell.row = neighbourRow.key.bytes := by
  refine ⟨encode_neighbours, made_neighbourRow, cells_neighbourRow, inStoreOrder_neighbourCells, ?_⟩
  intro own
  have same := own [102] [98] _ lookup_neighbourRow
  rw [key_neighbourRow] at same
  revert same
  decide

end Row

end WideRow
