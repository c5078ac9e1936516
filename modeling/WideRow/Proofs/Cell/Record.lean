import WideRow.Cell.Record
import WideRow.Proofs.Cell.Order
import WideRow.Proofs.Cell.Placed

/-!
# Records of cells

Writing cells and reading them back, one by one and as a record.

* `PlacedCell.mapM_standalone`: cells that are written each to a buffer of its own are read there.
* `Record.encode_eq_ok`: a record holds the stored forms of its cells in store order.
* `Record.decode_entries`: the entries of a record are read as the cells that were written.
* `Record.rowAt_of_laid`: the key at the place of a row is that row.
-/

namespace WideRow

/-! ### Cells by themselves -/

/-- What succeeds on every item succeeds on all of them. -/
theorem mapM_eq_ok {α β ε : Type} {f : α → Except ε β} {g : α → β} {items : List α}
    (each : ∀ item ∈ items, f item = .ok (g item)) : items.mapM f = .ok (items.map g) := by
  induction items with
  | nil => rfl
  | cons item rest ih =>
    rw [List.mapM_cons, each item List.mem_cons_self,
      ih fun other member => each other (List.mem_cons_of_mem _ member)]
    rfl

/-- What succeeds on all items succeeds on every one of them. -/
theorem exists_ok_of_mapM {α β ε : Type} {f : α → Except ε β} {items : List α} {results : List β}
    (done : items.mapM f = .ok results) : ∀ item ∈ items, ∃ result, f item = .ok result := by
  induction items generalizing results with
  | nil => exact List.forall_mem_nil _
  | cons item rest ih =>
    rw [List.mapM_cons] at done
    cases first : f item with
    | error fault =>
      rw [first] at done
      cases done
    | ok result =>
      cases later : rest.mapM f with
      | error fault =>
        rw [first, later] at done
        cases done
      | ok results => exact List.forall_mem_cons.mpr ⟨⟨result, first⟩, ih later⟩

theorem Cell.encode_eq_ok {cell : Cell} (encodable : cell.Encodable) :
    cell.encode = .ok cell.bytes := by
  rw [encode, checkLengths_eq_ok.mpr encodable]
  rfl

theorem Cell.encodable_of_encode {cell : Cell} {stored : Bytes} (written : cell.encode = .ok stored) :
    cell.Encodable := by
  rw [encode] at written
  cases fits : cell.checkLengths with
  | error fault =>
    rw [fits] at written
    cases written
  | ok _ => exact checkLengths_eq_ok.mp fits

namespace PlacedCell

/-- A cell in a buffer of its own. -/
def alone (cell : Cell) : PlacedCell := ⟨cell.bytes, 0, cell⟩

theorem map_cell_alone (cells : List Cell) : (cells.map alone).map PlacedCell.cell = cells := by
  rw [List.map_map]
  exact List.map_id cells

theorem laid_alone (cell : Cell) : (alone cell).Laid := by
  rw [laid_iff, alone, ← Cell.bytes_length]
  exact Bytes.slice_all cell.bytes

theorem read_bytes {cell : Cell} (encodable : cell.Encodable) :
    read (Span.whole cell.bytes) = .ok (alone cell) := by
  have parts : cell.bytes = [] ++ cell.bytes ++ [] := (List.append_nil cell.bytes).symm
  have whole := read_of_parts encodable parts
  rw [← Cell.bytes_length] at whole
  exact whole

/-- Cells that are written each to a buffer of its own are read there. -/
theorem mapM_standalone {cells : List Cell} (each : ∀ cell ∈ cells, cell.Encodable) :
    cells.mapM standalone = .ok (cells.map alone) := by
  refine mapM_eq_ok fun cell member => ?_
  rw [standalone, Cell.encode_eq_ok (each cell member)]
  exact read_bytes (each cell member)

theorem bytes_span_alone (cell : Cell) : (alone cell).span.bytes = cell.bytes := by
  have whole : (alone cell).span = Span.whole cell.bytes := by
    rw [span, length, Span.whole, Cell.bytes_length, alone]
  rw [whole, Span.bytes_whole]

theorem sort_map_alone (cells : List Cell) :
    sort (cells.map alone) = (cells.mergeSort Cell.precedes).map alone := by
  rw [sort]
  exact (List.map_mergeSort (f := alone) fun _ _ _ _ => rfl).symm

end PlacedCell

namespace Record

/-- The cells of a record that lie in a buffer from a position on, each behind its length. -/
def placesFrom (buffer : Bytes) : Nat → List Cell → List PlacedCell
  | _, [] => []
  | position, cell :: rest =>
    ⟨buffer, position + prefixLength, cell⟩ ::
      placesFrom buffer (position + prefixLength + cell.encodedLength) rest

theorem map_cell_placesFrom (buffer : Bytes) (position : Nat) (cells : List Cell) :
    (placesFrom buffer position cells).map PlacedCell.cell = cells := by
  induction cells generalizing position with
  | nil => rfl
  | cons cell rest ih => rw [placesFrom, List.map_cons, ih]

/-- The cell can be an entry of a record. -/
structure Enterable (cell : Cell) : Prop where
  encodable : cell.Encodable
  short : cell.encodedLength ≤ 4294967295

theorem ofBigEndian_length_of_short {cell : Cell} (short : cell.encodedLength ≤ 4294967295) :
    Bytes.ofBigEndian (Bytes.bigEndian prefixLength cell.bytes.length) = cell.encodedLength := by
  rw [Cell.bytes_length]
  exact Bytes.ofBigEndian_bigEndian_of_lt (Nat.lt_succ_of_le short)

/-- What stands behind a length is read as far as the length goes, and then the rest. -/
theorem decodeFrom_field {field others : Bytes} {length : Nat} (four : field.length = prefixLength)
    (read : Bytes.ofBigEndian field = length) (whole : length ≤ others.length) (buffer : Bytes)
    (position : Nat) :
    decodeFrom buffer position (field ++ others) =
      match Cell.decode (others.take length) with
      | .error fault => .error fault
      | .ok cell => (decodeFrom buffer (position + prefixLength + length) (others.drop length)).map
          fun rest => ⟨buffer, position + prefixLength, cell⟩ :: rest := by
  have positive : 0 < prefixLength := by decide
  have nonempty : field ++ others ≠ [] := by
    refine List.ne_nil_of_length_pos ?_
    rw [List.length_append]
    omega
  have prefixed : Bytes.atLeast prefixLength (field ++ others) = true := by
    rw [Bytes.atLeast_iff, List.length_append]
    omega
  have front : (field ++ others).take prefixLength = field := List.take_left' four
  have inside : Bytes.atLeast (prefixLength + length) (field ++ others) = true := by
    rw [Bytes.atLeast_iff, List.length_append]
    omega
  have cut : Bytes.slice (field ++ others) prefixLength length = others.take length := by
    rw [Bytes.slice, List.drop_left' four]
  have behind : (field ++ others).drop (prefixLength + length) = others.drop length := by
    rw [← List.drop_drop, List.drop_left' four]
  rw [decodeFrom, if_neg nonempty, prefixed, front, read]
  simp only [inside, cut, behind, Bool.not_true, Bool.false_eq_true, if_false]
  cases Cell.decode (others.take length) with
  | error fault => rfl
  | ok cell =>
    simp only
    cases decodeFrom buffer (position + prefixLength + length) (others.drop length) with
    | error fault => rfl
    | ok rest => rfl

/-- A cell that can be an entry is read, and the others from behind it. -/
theorem decodeFrom_entry {cell : Cell} (fits : Enterable cell) (others buffer : Bytes)
    (position : Nat) :
    decodeFrom buffer position (entry cell.bytes ++ others) =
      (decodeFrom buffer (position + prefixLength + cell.encodedLength) others).map
        fun rest => ⟨buffer, position + prefixLength, cell⟩ :: rest := by
  have size := cell.bytes_length
  have whole : cell.encodedLength ≤ (cell.bytes ++ others).length := by
    rw [List.length_append]
    omega
  rw [entry, List.append_assoc, decodeFrom_field (Bytes.bigEndian_length _ _)
    (ofBigEndian_length_of_short fits.short) whole, List.take_left' size, List.drop_left' size,
    Cell.decode_bytes fits.encodable]

/-- The entries that a record begins with are read, and then what is behind them. -/
theorem decodeFrom_append {cells : List Cell} (each : ∀ cell ∈ cells, Enterable cell)
    (others buffer : Bytes) (position : Nat) :
    ∃ next, decodeFrom buffer position ((cells.flatMap fun cell => entry cell.bytes) ++ others) =
      (decodeFrom buffer next others).map fun rest => placesFrom buffer position cells ++ rest := by
  induction cells generalizing position with
  | nil =>
    refine ⟨position, ?_⟩
    rw [List.flatMap_nil, List.nil_append]
    cases decodeFrom buffer position others with
    | error fault => rfl
    | ok rest => rfl
  | cons cell rest ih =>
    obtain ⟨fits, later⟩ := List.forall_mem_cons.mp each
    obtain ⟨next, behind⟩ := ih later (position + prefixLength + cell.encodedLength)
    refine ⟨next, ?_⟩
    rw [List.flatMap_cons, List.append_assoc, decodeFrom_entry fits, behind]
    cases decodeFrom buffer next others with
    | error fault => rfl
    | ok found => rfl

theorem decodeFrom_entries {cells : List Cell} (each : ∀ cell ∈ cells, Enterable cell)
    (buffer : Bytes) (position : Nat) :
    decodeFrom buffer position (cells.flatMap fun cell => entry cell.bytes) =
      .ok (placesFrom buffer position cells) := by
  obtain ⟨next, whole⟩ := decodeFrom_append each [] buffer position
  have ended : decodeFrom buffer next [] = .ok [] := by
    rw [decodeFrom]
    rfl
  rw [List.append_nil, ended] at whole
  rw [whole, Except.map, List.append_nil]

/-- The entries of a record are read as the cells that were written. -/
theorem decode_entries {cells : List Cell} (each : ∀ cell ∈ cells, Enterable cell) :
    decode (Span.whole (cells.flatMap fun cell => entry cell.bytes)) =
      .ok (placesFrom (cells.flatMap fun cell => entry cell.bytes) 0 cells) := by
  rw [decode, Span.bytes_whole]
  exact decodeFrom_entries each _ 0

/-- A record holds the stored forms of its cells in store order. -/
theorem encode_eq_ok {cells : List Cell} (each : ∀ cell ∈ cells, cell.Encodable) :
    encode cells =
      .ok ((cells.mergeSort Cell.precedes).flatMap fun cell => entry cell.bytes) := by
  have written : cells.mapM Cell.encode = .ok (cells.map Cell.bytes) :=
    mapM_eq_ok fun cell member => Cell.encode_eq_ok (each cell member)
  have views : (cells.map Cell.bytes).mapM (fun stored => PlacedCell.read (Span.whole stored)) =
      .ok (cells.map PlacedCell.alone) := by
    rw [List.mapM_map]
    exact mapM_eq_ok fun cell member => PlacedCell.read_bytes (each cell member)
  have entries : (PlacedCell.sort (cells.map PlacedCell.alone)).flatMap
      (fun view => entry view.span.bytes) =
      (cells.mergeSort Cell.precedes).flatMap fun cell => entry cell.bytes := by
    rw [PlacedCell.sort_map_alone, List.flatMap_map]
    simp only [PlacedCell.bytes_span_alone]
  calc encode cells
      = (cells.map Cell.bytes).mapM (fun stored => PlacedCell.read (Span.whole stored)) >>=
          fun views => .ok ((PlacedCell.sort views).flatMap fun view => entry view.span.bytes) := by
        rw [encode, written]
        rfl
    _ = .ok ((PlacedCell.sort (cells.map PlacedCell.alone)).flatMap
          fun view => entry view.span.bytes) := by
        rw [views]
        rfl
    _ = _ := by rw [entries]

/-! ### Keys -/

/-- The row of a laid cell is the key that is found at its place. -/
theorem rowAt_of_laid {placed : PlacedCell} (laid : placed.Laid) (short : placed.cell.row.length ≤ 32767)
    {region : Span} {lead : Nat} (buffer : region.buffer = placed.buffer)
    (start : region.offset + lead = placed.rowOffset)
    (room : lead + placed.cell.row.length ≤ region.length) :
    rowAt region lead = .ok ⟨placed.buffer, placed.rowOffset, placed.cell.row.length⟩ := by
  have before : placed.rowOffset - 2 = placed.keyOffset := by
    rw [PlacedCell.rowOffset]
    omega
  simp only [rowAt, start, buffer, before, laid.rowLength, Cell.rowLength_bigEndian short,
    Int.toNat_natCast]
  rw [if_neg (by omega), if_neg (by omega), if_neg (by omega)]

theorem room_of_rowAt {region span : Span} {lead : Nat} (found : rowAt region lead = .ok span) :
    lead ≤ region.length ∧ span.buffer = region.buffer := by
  simp only [rowAt] at found
  split at found
  · cases found
  rename_i room
  split at found
  · cases found
  split at found
  · cases found
  injection found with same
  rw [← same]
  exact ⟨Nat.le_of_not_lt room, rfl⟩

theorem row_within (cell : Cell) : Cell.headerLength + 2 + cell.row.length ≤ cell.encodedLength := by
  rw [Cell.encodedLength, Cell.keyLength, Cell.keyOverhead]
  omega

/-- The key of a record is the row of the cell that it begins with. -/
theorem key_entry {cell : Cell} (encodable : cell.Encodable) (others : Bytes) :
    ∃ span, key (Span.whole (entry cell.bytes ++ others)) = .ok span ∧ span.bytes = cell.row := by
  have parts : entry cell.bytes ++ others =
      Bytes.bigEndian prefixLength cell.encodedLength ++ cell.bytes ++ others := by
    rw [entry, Cell.bytes_length]
  have laid : PlacedCell.Laid ⟨entry cell.bytes ++ others, prefixLength, cell⟩ := by
    have cut := Bytes.slice_of_append parts
    rw [Bytes.bigEndian_length, Cell.bytes_length] at cut
    exact (PlacedCell.laid_iff _).mpr cut
  have room : prefixLength + Cell.headerLength + 2 + cell.row.length ≤
      (Span.whole (entry cell.bytes ++ others)).length := by
    have inside := row_within cell
    have size : (Span.whole (entry cell.bytes ++ others)).length =
        prefixLength + cell.encodedLength + others.length := by
      rw [Span.whole, parts, List.length_append, List.length_append, Bytes.bigEndian_length,
        Cell.bytes_length]
    omega
  exact ⟨_, rowAt_of_laid laid encodable.row rfl (Nat.zero_add _) room, laid.row⟩

/-- The key of a row of cells is the row of the first of them. -/
theorem keyOfCells_alone {cell : Cell} (encodable : cell.Encodable) (rest : List PlacedCell) :
    ∃ span, keyOfCells (PlacedCell.alone cell :: rest) = .ok span ∧ span.bytes = cell.row := by
  have laid := PlacedCell.laid_alone cell
  exact ⟨_, rowAt_of_laid laid encodable.row rfl rfl (row_within cell), laid.row⟩

end Record

end WideRow
