import WideRow.Proofs.Row.Splitting

/-!
# A record amid other bytes

A record that lies between other bytes of a buffer is read like the record by itself.  Positions are
counted from the start of the buffer, so those of keys, of cells and in faults move by the number of bytes
before the record (`Span.moved`, `PlacedCell.moved`, `RecordFault.moved`), and nothing else changes.

* `Bytes.slice_amid` : what is cut out of the record is the same in both places.
* `Record.decodeFrom_moved` : so are its cells, turn by turn of the loop that splits it.
* `Record.rowAt_amid` : and so is its key.
* `Row.amid_alike` : the row of the record amid other bytes, compared with that of the record alone.
-/

namespace WideRow

/-! ### Moved positions -/

/-- The stretch of a record between other bytes of a buffer. -/
def Span.amid (before record after : Bytes) : Span :=
  ⟨before ++ record ++ after, before.length, record.length⟩

/-- The stretch that many positions further on, in another buffer. -/
def Span.moved (buffer : Bytes) (distance : Nat) (span : Span) : Span :=
  ⟨buffer, distance + span.offset, span.length⟩

/-- The cell that many positions further on, in another buffer. -/
def PlacedCell.moved (buffer : Bytes) (distance : Nat) (placed : PlacedCell) : PlacedCell :=
  ⟨buffer, distance + placed.offset, placed.cell⟩

/-- The fault that many positions further on. -/
def RecordFault.moved (distance : Nat) : RecordFault → RecordFault
  | .noKeyLength limit offset => .noKeyLength (distance + limit) (distance + offset)
  | .keyOverrun length offset limit => .keyOverrun length (distance + offset) (distance + limit)
  | .truncatedCellLength position => .truncatedCellLength (distance + position)
  | .cellOverrun offset length => .cellOverrun (distance + offset) length
  | fault => fault

/-- What is read from a record, or its fault, that many positions further on. -/
def Record.movedResult {α : Type} (distance : Nat) (move : α → α) (result : Except RecordFault α) :
    Except RecordFault α :=
  match result with
  | .ok found => .ok (move found)
  | .error fault => .error (fault.moved distance)

/-! ### Bytes -/

theorem Bytes.slice_amid (before : Bytes) {record : Bytes} (after : Bytes) {offset length : Nat}
    (inside : offset + length ≤ record.length) :
    slice (before ++ record ++ after) (before.length + offset) length =
      slice record offset length := by
  have room : length ≤ (record.drop offset).length := by
    rw [List.length_drop]
    omega
  have skip : offset - record.length = 0 := by omega
  simp only [slice, List.append_assoc, List.drop_append, Nat.add_sub_cancel_left, skip]
  rw [List.drop_eq_nil_of_le (Nat.le_add_right _ _), List.nil_append, List.drop_zero,
    List.take_append_of_le_length room]

theorem Span.bytes_amid (before record after : Bytes) : (amid before record after).bytes = record :=
  Bytes.slice_of_append rfl

theorem Span.bytes_moved (before : Bytes) {record : Bytes} (after : Bytes) {span : Span}
    (buffer : span.buffer = record) (within : span.limit ≤ record.length) :
    (span.moved (before ++ record ++ after) before.length).bytes = span.bytes := by
  subst buffer
  exact Bytes.slice_amid before after within

/-! ### Cells and key -/

/-- A result whose fault, if it is one, names no position. -/
def Record.Placeless {α : Type} (result : Except RecordFault α) : Prop :=
  ∀ fault, result = .error fault → ∀ distance, fault.moved distance = fault

theorem Record.Placeless.ok {α : Type} (found : α) : Placeless (.ok found) := by
  intro fault fails
  cases fails

theorem Record.Placeless.check {α : Type} {condition : Prop} [Decidable condition]
    {wrong : RecordFault} {result : Except RecordFault α}
    (fixed : ∀ distance, wrong.moved distance = wrong) (others : Placeless result) :
    Placeless (if condition then .error wrong else result) := by
  intro fault fails
  split at fails
  · injection fails with same
    rw [← same]
    exact fixed
  · exact others fault fails

/-- What is wrong with a cell is told by lengths. -/
theorem Cell.placeless_decode (stored : Bytes) : Record.Placeless (Cell.decode stored) := by
  unfold Cell.decode Cell.decodeKey
  refine .check (fun _ => rfl) (.check (fun _ => rfl) ?_)
  exact .check (fun _ => rfl) (.check (fun _ => rfl) (.check (fun _ => rfl)
    (.check (fun _ => rfl) (.ok _))))

namespace Record

/-- Splitting bytes further on gives the same cells, or the same fault, further on. -/
theorem decodeFrom_moved (buffer other : Bytes) (position distance : Nat) (bytes : Bytes) :
    decodeFrom other (distance + position) bytes =
      movedResult distance (List.map (PlacedCell.moved other distance))
        (decodeFrom buffer position bytes) := by
  rw [decodeFrom, decodeFrom]
  by_cases empty : bytes = []
  · rw [if_pos empty, if_pos empty]
    rfl
  rw [if_neg empty, if_neg empty]
  by_cases truncated : (!Bytes.atLeast prefixLength bytes) = true
  · rw [if_pos truncated, if_pos truncated]
    rfl
  rw [if_neg truncated, if_neg truncated]
  generalize Bytes.ofBigEndian (bytes.take prefixLength) = length
  simp only [Nat.add_assoc]
  by_cases overrun : (!Bytes.atLeast (prefixLength + length) bytes) = true
  · rw [if_pos overrun, if_pos overrun]
    rfl
  rw [if_neg overrun, if_neg overrun]
  cases answer : Cell.decode (Bytes.slice bytes prefixLength length) with
  | error fault =>
    show Except.error fault = .error (fault.moved distance)
    rw [Cell.placeless_decode _ fault answer]
  | ok cell =>
    have others := decodeFrom_moved buffer other (position + (prefixLength + length)) distance
      (bytes.drop (prefixLength + length))
    simp only [others]
    cases decodeFrom buffer (position + (prefixLength + length))
      (bytes.drop (prefixLength + length)) with
    | error fault => rfl
    | ok rest => rfl
termination_by bytes.length
decreasing_by
  have nonempty := List.length_pos_iff.mpr empty
  simp only [List.length_drop, prefixLength]
  omega

theorem decode_amid (before record after : Bytes) :
    decode (Span.amid before record after) =
      movedResult before.length
        (List.map (PlacedCell.moved (before ++ record ++ after) before.length))
        (decode (Span.whole record)) := by
  rw [decode, decode, Span.bytes_amid, Span.bytes_whole]
  exact decodeFrom_moved record (before ++ record ++ after) 0 before.length record

/-- The row behind a two-byte length is read alike, if both lie in the record. -/
theorem rowAt_amid (before record after : Bytes) {lead : Nat} (behind : 2 ≤ lead) :
    rowAt (Span.amid before record after) lead =
      movedResult before.length (Span.moved (before ++ record ++ after) before.length)
        (rowAt (Span.whole record) lead) := by
  rw [Span.amid, Span.whole]
  simp only [rowAt, Span.limit, Nat.zero_add]
  by_cases short : record.length < lead
  · rw [if_pos short, if_pos short]
    rfl
  have start : before.length + lead - 2 = before.length + (lead - 2) := by omega
  rw [if_neg short, if_neg short, start, Bytes.slice_amid before after (by omega)]
  generalize (Signed.wrap 16 (Bytes.ofBigEndian (Bytes.slice record (lead - 2) 2))).val = length
  by_cases negative : length < 0
  · rw [if_pos negative, if_pos negative]
    rfl
  rw [if_neg negative, if_neg negative]
  by_cases overrun : record.length < lead + length.toNat
  · rw [if_pos overrun, if_pos overrun]
    rfl
  · rw [if_neg overrun, if_neg overrun]
    rfl

/-- The key of a record lies in it. -/
theorem within_of_rowAt {region span : Span} {lead : Nat} (found : rowAt region lead = .ok span) :
    span.buffer = region.buffer ∧ span.limit ≤ region.limit := by
  simp only [rowAt] at found
  split at found
  · cases found
  split at found
  · cases found
  split at found
  · cases found
  rename_i room
  injection found with same
  rw [← same]
  refine ⟨rfl, ?_⟩
  simp only [Span.limit]
  omega

/-- The cells of a record lie in it. -/
theorem Entries.within {region : Span} {position : Nat} {cells : List PlacedCell}
    (entries : Entries region position cells) :
    ∀ placed ∈ cells, placed.buffer = region.buffer ∧ placed.span.limit ≤ region.limit := by
  induction entries with
  | ended => exact List.forall_mem_nil _
  | @entry position placed others first _ ih =>
    refine List.forall_mem_cons.mpr ⟨⟨first.buffer, ?_⟩, ih⟩
    have inside := first.within
    rw [PlacedCell.span_of_read first.read]
    simp only [Span.limit] at inside ⊢
    omega

end Record

namespace Row

/-- A search does not ask where cells lie. -/
theorem findIn_moved (buffer : Bytes) (distance : Nat) (cells : List PlacedCell) (term : SearchTerm) :
    findIn (cells.map (PlacedCell.moved buffer distance)) term =
      (findIn cells term).map (PlacedCell.moved buffer distance) := by
  rw [findIn, findIn, Search.position_map, List.getElem?_map]
  show ((cells[Search.position (fun placed => Cell.orderToTerm placed.cell term) cells]?).map
    (PlacedCell.moved buffer distance) >>= fun found =>
      if found.cell.inColumn term.family term.qualifier then some found else none) = _
  cases cells[Search.position (fun placed => Cell.orderToTerm placed.cell term) cells]? with
  | none => rfl
  | some found =>
    show (if found.cell.inColumn term.family term.qualifier = true then
        some (found.moved buffer distance) else none) =
      Option.map (PlacedCell.moved buffer distance)
        (if found.cell.inColumn term.family term.qualifier = true then some found else none)
    split <;> rfl

/-- What is read from one row and from another one that lies further on, in another buffer. -/
structure Moved (buffer : Bytes) (distance : Nat) (row other : Row) : Prop where
  key : other.key = row.key.moved buffer distance
  key_bytes : other.key.bytes = row.key.bytes
  cells : other.cells =
    Record.movedResult distance (List.map (PlacedCell.moved buffer distance)) row.cells
  stored : ∀ cells, row.cells = .ok cells → ∀ placed ∈ cells,
    (placed.moved buffer distance).span.bytes = placed.span.bytes
  find : ∀ term, other.find term =
    Record.movedResult distance (Option.map (PlacedCell.moved buffer distance)) (row.find term)
  lookup : ∀ family qualifier, other.lookup family qualifier =
    Record.movedResult distance (Option.map (PlacedCell.moved buffer distance))
      (row.lookup family qualifier)
  columnValue : ∀ family qualifier, other.columnValue family qualifier =
    Record.movedResult distance id (row.columnValue family qualifier)

theorem find_moved {buffer : Bytes} {distance : Nat} {row other : Row}
    (cells : other.cells =
      Record.movedResult distance (List.map (PlacedCell.moved buffer distance)) row.cells)
    (term : SearchTerm) :
    other.find term =
      Record.movedResult distance (Option.map (PlacedCell.moved buffer distance))
        (row.find term) := by
  rw [find, find, cells]
  cases row.cells with
  | error fault => rfl
  | ok found => exact congrArg Except.ok (findIn_moved buffer distance found term)

theorem columnValue_moved {buffer : Bytes} {distance : Nat} {row other : Row}
    {family qualifier : Bytes}
    (lookup : other.lookup family qualifier =
      Record.movedResult distance (Option.map (PlacedCell.moved buffer distance))
        (row.lookup family qualifier)) :
    other.columnValue family qualifier =
      Record.movedResult distance id (row.columnValue family qualifier) := by
  rw [columnValue, columnValue, lookup]
  cases row.lookup family qualifier with
  | error fault => rfl
  | ok found =>
    cases found with
    | none => rfl
    | some placed => rfl

/-- The row of a record amid other bytes. -/
theorem ofRegion_amid (before record after : Bytes) :
    ofRegion (Span.amid before record after) =
      match ofRecord record with
      | .ok row => .ok ⟨row.key.moved (before ++ record ++ after) before.length,
          .record (Span.amid before record after) none⟩
      | .error fault => .error (fault.moved before.length) := by
  have inside : ¬ (Span.amid before record after).buffer.length <
      (Span.amid before record after).limit := by
    simp only [Span.amid, Span.limit, List.length_append]
    omega
  have whole : ¬ (Span.whole record).buffer.length < (Span.whole record).limit := by
    simp [Span.whole, Span.limit]
  have key : Record.key (Span.amid before record after) =
      Record.movedResult before.length (Span.moved (before ++ record ++ after) before.length)
        (Record.key (Span.whole record)) := Record.rowAt_amid before record after (by decide)
  rw [ofRecord, ofRegion, ofRegion, if_neg inside, if_neg whole, key]
  cases Record.key (Span.whole record) with
  | error fault => rfl
  | ok found => rfl

/-- The row of a record alone and the row of the record amid other bytes. -/
theorem moved_amid (before : Bytes) {record : Bytes} (after : Bytes) {row other : Row}
    (alone : ofRecord record = .ok row)
    (amid : ofRegion (Span.amid before record after) = .ok other) :
    Moved (before ++ record ++ after) before.length row other := by
  rw [ofRegion_amid, alone] at amid
  injection amid with same
  obtain ⟨_, key, shape⟩ := ofRegion_eq_ok.mp alone
  have limit : (Span.whole record).limit = record.length := Nat.zero_add _
  have split : row.cells = Record.decode (Span.whole record) := by
    rw [Row.cells, shape]
  have cells : other.cells =
      Record.movedResult before.length
        (List.map (PlacedCell.moved (before ++ record ++ after) before.length)) row.cells := by
    rw [← same, cells_record, Record.decode_amid, split]
  have keyPlace : other.key = row.key.moved (before ++ record ++ after) before.length := by
    rw [← same]
  have keyBytes : other.key.bytes = row.key.bytes := by
    obtain ⟨buffer, within⟩ := Record.within_of_rowAt key
    rw [keyPlace]
    exact Span.bytes_moved before after buffer (limit ▸ within)
  have find := find_moved cells
  have lookup : ∀ family qualifier, other.lookup family qualifier =
      Record.movedResult before.length
        (Option.map (PlacedCell.moved (before ++ record ++ after) before.length))
        (row.lookup family qualifier) := by
    intro family qualifier
    rw [Row.lookup, Row.lookup, term, term, keyBytes]
    exact find _
  refine ⟨keyPlace, keyBytes, cells, ?_, find, lookup, fun family qualifier =>
    columnValue_moved (lookup family qualifier)⟩
  intro found answer placed member
  rw [split, Record.decode_eq_ok (Nat.le_of_eq limit)] at answer
  obtain ⟨buffer, within⟩ := answer.within placed member
  exact Span.bytes_moved before after buffer (limit ▸ within)

/-- **A record amid other bytes reads like the record alone.**  It makes a row exactly if the record alone
does, and if not the fault is the same.  The two rows have the same key, the same cells and the same answer
to every search, or the same fault when they are asked for them.  Only positions differ, by the number of
bytes before the record; what those bytes and the ones after the record are does not count. -/
theorem amid_alike (before record after : Bytes) :
    ((∃ row, ofRegion (Span.amid before record after) = .ok row) ↔
      ∃ row, ofRecord record = .ok row) ∧
    (∀ fault, ofRecord record = .error fault →
      ofRegion (Span.amid before record after) = .error (fault.moved before.length)) ∧
    ∀ row other, ofRecord record = .ok row →
      ofRegion (Span.amid before record after) = .ok other →
      Moved (before ++ record ++ after) before.length row other := by
  have made := ofRegion_amid before record after
  refine ⟨?_, ?_, fun row other alone amid => moved_amid before after alone amid⟩
  · rw [made]
    cases ofRecord record with
    | error fault => simp
    | ok row => simp
  · intro fault fails
    rw [made, fails]

/-- A record of one cell that is followed by a length without a cell, between other bytes: the key is
found, the cells are not, and the fault is told where it is. -/
theorem amid_alike_truncated :
    ∃ row other, ofRecord (Record.entry framedCell.bytes ++ [0, 0]) = .ok row ∧
      ofRegion (Span.amid [255] (Record.entry framedCell.bytes ++ [0, 0]) [0, 0, 7]) = .ok other ∧
      other.key.bytes = row.key.bytes ∧ row.cells = .error (.truncatedCellLength 27) ∧
      other.cells = .error (.truncatedCellLength 28) ∧
      ofRecord [0, 1] = .error (.noKeyLength 2 14) ∧
      ofRegion (Span.amid [255] [0, 1] []) = .error (.noKeyLength 3 15) := by
  obtain ⟨accepts, _, moves⟩ :=
    amid_alike [255] (Record.entry framedCell.bytes ++ [0, 0]) [0, 0, 7]
  obtain ⟨_, fails, _⟩ := amid_alike [255] [0, 1] []
  have short : ofRecord [0, 1] = .error (.noKeyLength 2 14) := rfl
  have alone : ofRecord (Record.entry framedCell.bytes ++ [0, 0]) = .ok _ := rfl
  obtain ⟨other, amid⟩ := accepts.mpr ⟨_, alone⟩
  have moved := moves _ _ alone amid
  have truncated : Row.cells ⟨⟨Record.entry framedCell.bytes ++ [0, 0], 14, 1⟩,
      .record (Span.whole (Record.entry framedCell.bytes ++ [0, 0])) none⟩ =
        .error (.truncatedCellLength 27) := by
    decide +kernel
  refine ⟨_, other, alone, amid, moved.key_bytes, truncated, ?_, short, fails _ short⟩
  rw [moved.cells]
  exact congrArg (Record.movedResult 1 _) truncated

end Row

end WideRow
