import WideRow.Proofs.Row.Shapes

/-!
# Splitting a record

A record in a buffer is split by a loop over positions.  A turn of the loop reads the length at its
position and the cell behind it, or refuses what is there (`Record.turn`); the loop ends at the limit of
the record (`Record.Scanned`).  What it accepts is told in two ways: by the places of the cells, which
follow one another from the offset of the record to its limit (`Record.Entries`), and by its bytes, which
are stored cells behind their lengths (`Record.Concatenated`).

* `Record.decodeFrom_rest`: splitting what is left of a record is one turn, and then the rest.
* `Record.scanned_decode`: the loop ends, after a number of turns that the length of the record limits.
* `Record.decode_eq_ok`, `Record.decode_concatenated`: the records that are accepted, and their cells.
* `Row.split_exact`: the cells, the key and the lookups of a row that is seen through a record.
-/

namespace WideRow

namespace Record

/-! ### One turn -/

/-- The bytes of a record from a position on. -/
def rest (region : Span) (position : Nat) : Bytes :=
  Bytes.slice region.buffer position (region.limit - position)

/-- One turn of the loop that splits a record: the cell behind the length at a position, and where the
next entry starts. -/
def turn (region : Span) (position : Nat) : Except RecordFault (PlacedCell × Nat) :=
  if region.limit < position + prefixLength then .error (.truncatedCellLength position)
  else
    let length := Bytes.ofBigEndian (Bytes.slice region.buffer position prefixLength)
    let start := position + prefixLength
    if region.limit < start + length then .error (.cellOverrun start length)
    else
      match PlacedCell.read ⟨region.buffer, start, length⟩ with
      | .error fault => .error fault
      | .ok placed => .ok (placed, start + length)

/-- An entry of a record: the cell is read behind its length, within the record. -/
structure Entry (region : Span) (position : Nat) (placed : PlacedCell) : Prop where
  short : placed.length ≤ 4294967295
  prefixed : Bytes.slice region.buffer position prefixLength =
    Bytes.bigEndian prefixLength placed.length
  within : position + prefixLength + placed.length ≤ region.limit
  read : PlacedCell.read ⟨region.buffer, position + prefixLength, placed.length⟩ = .ok placed

variable {region : Span} {position : Nat}

theorem rest_length (inside : region.limit ≤ region.buffer.length) (position : Nat) :
    (rest region position).length = region.limit - position := by
  rw [rest, Bytes.slice_length]
  omega

theorem atLeast_rest (inside : region.limit ≤ region.buffer.length) (before : position < region.limit)
    (count : Nat) :
    Bytes.atLeast count (rest region position) = decide (position + count ≤ region.limit) := by
  rw [Bool.eq_iff_iff, Bytes.atLeast_iff, rest_length inside, decide_eq_true_iff]
  omega

theorem rest_offset (region : Span) : rest region region.offset = region.bytes := by
  rw [rest, Span.bytes, Span.limit, Nat.add_sub_cancel_left]

/-- What is left of a record splits where any part of it ends. -/
theorem rest_split {length : Nat} (within : position + length ≤ region.limit) :
    rest region position =
      Bytes.slice region.buffer position length ++ rest region (position + length) := by
  rw [rest, rest, Bytes.slice_append_slice]
  congr 1
  omega

theorem slice_rest {lead length : Nat} (within : position + lead + length ≤ region.limit) :
    Bytes.slice (rest region position) lead length =
      Bytes.slice region.buffer (position + lead) length := by
  have room : min length (region.limit - position - lead) = length := by omega
  rw [rest, Bytes.slice, Bytes.slice, Bytes.slice, List.drop_take, List.drop_drop, List.take_take, room]

theorem take_rest {length : Nat} (within : position + length ≤ region.limit) :
    (rest region position).take length = Bytes.slice region.buffer position length := by
  rw [rest, Bytes.slice, Bytes.slice, List.take_take]
  congr 1
  omega

theorem drop_rest (region : Span) (position length : Nat) :
    (rest region position).drop length = rest region (position + length) := by
  rw [rest, rest, Bytes.slice, Bytes.slice, List.drop_take, List.drop_drop]
  congr 1
  omega

/-- Splitting what is left of a record is one turn, and then the rest. -/
theorem decodeFrom_rest (inside : region.limit ≤ region.buffer.length)
    (before : position < region.limit) :
    decodeFrom region.buffer position (rest region position) =
      match turn region position with
      | .error fault => .error fault
      | .ok (placed, next) =>
        (decodeFrom region.buffer next (rest region next)).map fun others => placed :: others := by
  have nonempty : rest region position ≠ [] := by
    refine List.ne_nil_of_length_pos ?_
    rw [rest_length inside]
    omega
  rw [decodeFrom, if_neg nonempty, turn, atLeast_rest inside before]
  by_cases truncated : region.limit < position + prefixLength
  · rw [if_pos truncated, decide_eq_false (Nat.not_le.mpr truncated)]
    rfl
  have prefixed := Nat.le_of_not_lt truncated
  rw [if_neg truncated, decide_eq_true prefixed, take_rest prefixed]
  generalize Bytes.ofBigEndian (Bytes.slice region.buffer position prefixLength) = length
  simp only [atLeast_rest inside before, ← Nat.add_assoc, Bool.not_true, Bool.false_eq_true, if_false]
  by_cases overrun : region.limit < position + prefixLength + length
  · rw [if_pos overrun, decide_eq_false (Nat.not_le.mpr overrun)]
    rfl
  have whole := Nat.le_of_not_lt overrun
  have within : Span.limit ⟨region.buffer, position + prefixLength, length⟩ ≤
      region.buffer.length := Nat.le_trans whole inside
  rw [if_neg overrun, decide_eq_true whole, slice_rest whole, drop_rest, PlacedCell.read,
    if_neg (Nat.not_lt.mpr within), ← Nat.add_assoc, Span.bytes]
  simp only [Bool.not_true, Bool.false_eq_true, if_false]
  cases Cell.decode (Bytes.slice region.buffer (position + prefixLength) length) with
  | error fault => rfl
  | ok cell =>
    simp only
    cases decodeFrom region.buffer (position + prefixLength + length)
      (rest region (position + prefixLength + length)) with
    | error fault => rfl
    | ok others => rfl

theorem decodeFrom_limit (buffer : Bytes) (ended : region.limit ≤ position) :
    decodeFrom buffer position (rest region position) = .ok [] := by
  have empty : rest region position = [] := by
    rw [rest, Nat.sub_eq_zero_of_le ended]
    exact List.take_zero
  rw [empty, decodeFrom, if_pos rfl]

/-- The four bytes in front of a cell are those of the length that they are read as. -/
theorem prefix_of_length {length : Nat} (room : position + prefixLength ≤ region.buffer.length)
    (read : Bytes.ofBigEndian (Bytes.slice region.buffer position prefixLength) = length) :
    length ≤ 4294967295 ∧
      Bytes.slice region.buffer position prefixLength = Bytes.bigEndian prefixLength length := by
  have size : (Bytes.slice region.buffer position prefixLength).length = prefixLength := by
    rw [Bytes.slice_length]
    omega
  have small := Bytes.ofBigEndian_lt (Bytes.slice region.buffer position prefixLength)
  have written := Bytes.bigEndian_ofBigEndian (Bytes.slice region.buffer position prefixLength)
  rw [size, read] at small written
  exact ⟨Nat.le_of_lt_succ small, written.symm⟩

/-- A turn accepts exactly the entries. -/
theorem turn_eq_ok (inside : region.limit ≤ region.buffer.length) {placed : PlacedCell} {next : Nat} :
    turn region position = .ok (placed, next) ↔
      Entry region position placed ∧ next = position + prefixLength + placed.length := by
  constructor
  · intro answer
    rw [turn] at answer
    split at answer
    · cases answer
    rename_i prefixed
    generalize length_eq : Bytes.ofBigEndian (Bytes.slice region.buffer position prefixLength) =
      length at answer
    simp only at answer
    split at answer
    · cases answer
    rename_i whole
    split at answer
    · cases answer
    rename_i found read
    injection answer with answer
    injection answer with same next
    subst same
    have place := PlacedCell.span_of_read read
    injection place with _ _ length
    subst length
    have room := Nat.le_trans (Nat.le_of_not_lt prefixed) inside
    obtain ⟨short, written⟩ := prefix_of_length room length_eq
    exact ⟨⟨short, written, Nat.le_of_not_lt whole, read⟩, next.symm⟩
  · intro ⟨⟨short, prefixed, within, read⟩, next⟩
    have field : Bytes.ofBigEndian (Bytes.slice region.buffer position prefixLength) =
        placed.length := by
      rw [prefixed]
      exact Bytes.ofBigEndian_bigEndian_of_lt (Nat.lt_succ_of_le short)
    rw [turn, if_neg (by omega)]
    simp only [field, read]
    rw [if_neg (by omega), next]

/-! ### The loop -/

/-- What the loop does from a position on: how many turns it takes, and what comes of them. -/
inductive Scanned (region : Span) : Nat → Nat → Except RecordFault (List PlacedCell) → Prop
  | ended {position : Nat} (limit : region.limit ≤ position) : Scanned region position 0 (.ok [])
  | refused {position : Nat} {fault : RecordFault} (before : position < region.limit)
      (fails : turn region position = .error fault) : Scanned region position 1 (.error fault)
  | entry {position next turns : Nat} {placed : PlacedCell}
      {others : Except RecordFault (List PlacedCell)} (before : position < region.limit)
      (reads : turn region position = .ok (placed, next)) (later : Scanned region next turns others) :
      Scanned region position (turns + 1) (others.map fun others => placed :: others)

theorem encodedLength_ge (cell : Cell) : 20 ≤ cell.encodedLength := by
  rw [Cell.encodedLength, Cell.keyLength, Cell.keyOverhead, Cell.headerLength]
  omega

/-- Every turn that goes on leaves at least a length, a header and the least key behind, so the loop
ends. -/
theorem scanned_rest (inside : region.limit ≤ region.buffer.length) (position : Nat) :
    ∃ turns, 24 * turns ≤ region.limit - position + 24 ∧
      Scanned region position turns (decodeFrom region.buffer position (rest region position)) := by
  by_cases before : position < region.limit
  · rw [decodeFrom_rest inside before]
    cases answer : turn region position with
    | error fault => exact ⟨1, by omega, .refused before answer⟩
    | ok found =>
      obtain ⟨placed, next⟩ := found
      obtain ⟨⟨_, _, within, _⟩, advanced⟩ := (turn_eq_ok inside).mp answer
      have four : prefixLength = 4 := rfl
      have least : 20 ≤ placed.length := encodedLength_ge placed.cell
      obtain ⟨turns, few, later⟩ := scanned_rest inside next
      exact ⟨turns + 1, by omega, .entry before answer later⟩
  · rw [decodeFrom_limit region.buffer (Nat.le_of_not_lt before)]
    exact ⟨0, by omega, .ended (Nat.le_of_not_lt before)⟩
termination_by region.limit - position

theorem scanned_decode (inside : region.limit ≤ region.buffer.length) :
    ∃ turns, 24 * turns ≤ region.length + 24 ∧
      Scanned region region.offset turns (decode region) := by
  obtain ⟨turns, few, scanned⟩ := scanned_rest inside region.offset
  rw [rest_offset] at scanned
  rw [Span.limit, Nat.add_sub_cancel_left] at few
  exact ⟨turns, few, scanned⟩

/-! ### What is accepted -/

/-- The cells lie in the record one behind the other, each behind its length, from the position to the
limit. -/
inductive Entries (region : Span) : Nat → List PlacedCell → Prop
  | ended : Entries region region.limit []
  | entry {position : Nat} {placed : PlacedCell} {others : List PlacedCell}
      (first : Entry region position placed)
      (later : Entries region (position + prefixLength + placed.length) others) :
      Entries region position (placed :: others)

theorem Scanned.entries {turns : Nat} {result : Except RecordFault (List PlacedCell)}
    (scanned : Scanned region position turns result) (inside : region.limit ≤ region.buffer.length)
    (start : position ≤ region.limit) {cells : List PlacedCell} (answer : result = .ok cells) :
    Entries region position cells := by
  induction scanned generalizing cells with
  | ended limit =>
    injection answer with none_
    rw [← none_, Nat.le_antisymm start limit]
    exact .ended
  | refused _ _ => cases answer
  | @entry position next turns placed others _ reads _ ih =>
    obtain ⟨first, advanced⟩ := (turn_eq_ok inside).mp reads
    cases others with
    | error fault => cases answer
    | ok others =>
      injection answer with same
      rw [← same]
      refine .entry first ?_
      rw [← advanced]
      exact ih (advanced ▸ first.within) rfl

theorem Entries.decodeFrom_rest {cells : List PlacedCell} (entries : Entries region position cells)
    (inside : region.limit ≤ region.buffer.length) :
    decodeFrom region.buffer position (rest region position) = .ok cells := by
  induction entries with
  | ended => exact decodeFrom_limit region.buffer (Nat.le_refl _)
  | @entry position placed others first _ ih =>
    have before : position < region.limit := by
      have within := first.within
      have four : prefixLength = 4 := rfl
      omega
    rw [Record.decodeFrom_rest inside before, (turn_eq_ok inside).mpr ⟨first, rfl⟩]
    simp only [ih]
    rfl

/-- A record is split into the cells that lie in it one behind the other, if there are such cells. -/
theorem decode_eq_ok (inside : region.limit ≤ region.buffer.length) {cells : List PlacedCell} :
    decode region = .ok cells ↔ Entries region region.offset cells := by
  constructor
  · intro answer
    obtain ⟨turns, _, scanned⟩ := scanned_decode inside
    exact scanned.entries inside (Nat.le_add_right _ _) answer
  · intro entries
    have split := entries.decodeFrom_rest inside
    rw [rest_offset] at split
    exact split

theorem Entries.exists_first {cells : List PlacedCell} (entries : Entries region position cells)
    (before : position < region.limit) :
    ∃ first others, cells = first :: others ∧ Entry region position first := by
  cases entries with
  | ended => exact absurd before (Nat.lt_irrefl _)
  | entry first _ => exact ⟨_, _, rfl, first⟩

/-- The bytes are one or more stored cells, each behind its length. -/
def Concatenated (bytes : Bytes) : Prop :=
  ∃ stored : List Bytes, stored ≠ [] ∧ bytes = stored.flatMap entry ∧
    ∀ cell ∈ stored, cell.length ≤ 4294967295 ∧
      ∃ placed, PlacedCell.read (Span.whole cell) = .ok placed

theorem enterable_iff {stored : Bytes} :
    (stored.length ≤ 4294967295 ∧ ∃ placed, PlacedCell.read (Span.whole stored) = .ok placed) ↔
      ∃ cell, Enterable cell ∧ cell.bytes = stored := by
  constructor
  · intro ⟨short, placed, read⟩
    obtain ⟨_, _, _, encodable, filled⟩ := PlacedCell.read_eq_ok_iff.mp read
    rw [Span.bytes_whole] at filled
    rw [filled, Cell.bytes_length] at short
    exact ⟨placed.cell, ⟨encodable, short⟩, filled.symm⟩
  · intro ⟨cell, fits, same⟩
    rw [← same, Cell.bytes_length]
    exact ⟨fits.short, _, PlacedCell.read_bytes fits.encodable⟩

/-- What is left of a record with entries in it is their stored forms, each behind its length. -/
theorem Entries.rest_eq {cells : List PlacedCell} (entries : Entries region position cells) :
    (∀ placed ∈ cells, Enterable placed.cell) ∧
      rest region position = cells.flatMap fun placed => Record.entry placed.cell.bytes := by
  induction entries with
  | ended =>
    refine ⟨List.forall_mem_nil _, ?_⟩
    rw [rest, Nat.sub_self]
    exact List.take_zero
  | @entry position placed others first _ ih =>
    obtain ⟨each, behind⟩ := ih
    obtain ⟨short, prefixed, within, read⟩ := first
    obtain ⟨_, _, _, encodable, filled⟩ := PlacedCell.read_eq_ok_iff.mp read
    refine ⟨List.forall_mem_cons.mpr ⟨⟨encodable, short⟩, each⟩, ?_⟩
    rw [rest_split (Nat.le_trans (Nat.le_add_right _ _) within), rest_split within, prefixed, behind,
      List.flatMap_cons, Record.entry, Cell.bytes_length, ← filled, List.append_assoc]
    rfl

theorem exists_enterable {stored : List Bytes}
    (each : ∀ item ∈ stored, ∃ cell, Enterable cell ∧ cell.bytes = item) :
    ∃ cells : List Cell, (∀ cell ∈ cells, Enterable cell) ∧ cells.map Cell.bytes = stored := by
  induction stored with
  | nil => exact ⟨[], List.forall_mem_nil _, rfl⟩
  | cons item others ih =>
    obtain ⟨first, later⟩ := List.forall_mem_cons.mp each
    obtain ⟨cell, fits, same⟩ := first
    obtain ⟨cells, fit, same'⟩ := ih later
    exact ⟨cell :: cells, List.forall_mem_cons.mpr ⟨fits, fit⟩, congrArg₂ List.cons same same'⟩

/-- A record that is not empty is split exactly if it consists of stored cells behind their lengths. -/
theorem decode_concatenated (inside : region.limit ≤ region.buffer.length)
    (nonempty : 0 < region.length) :
    (∃ cells, decode region = .ok cells) ↔ Concatenated region.bytes := by
  constructor
  · rintro ⟨cells, answer⟩
    obtain ⟨each, whole⟩ := ((decode_eq_ok inside).mp answer).rest_eq
    have size := rest_length inside region.offset
    rw [rest_offset] at whole size
    refine ⟨cells.map fun placed => placed.cell.bytes, ?_, ?_, ?_⟩
    · intro none_
      rw [List.map_eq_nil_iff.mp none_] at whole
      rw [whole, Span.limit, Nat.add_sub_cancel_left] at size
      exact Nat.ne_of_lt nonempty size
    · rw [whole, List.flatMap_map]
    · intro stored member
      obtain ⟨placed, among, same⟩ := List.mem_map.mp member
      exact enterable_iff.mpr ⟨placed.cell, each placed among, same⟩
  · rintro ⟨stored, _, whole, each⟩
    obtain ⟨cells, fits, same⟩ :=
      exists_enterable fun item member => enterable_iff.mp (each item member)
    rw [← same, List.flatMap_map] at whole
    rw [decode, whole]
    exact ⟨_, decodeFrom_entries fits region.buffer region.offset⟩

/-! ### The key -/

theorem Entry.buffer {placed : PlacedCell} (entry : Entry region position placed) :
    placed.buffer = region.buffer := (PlacedCell.read_eq_ok_iff.mp entry.read).2.1

theorem Entry.row {placed : PlacedCell} (entry : Entry region position placed) :
    Span.bytes ⟨region.buffer, placed.rowOffset, placed.cell.row.length⟩ = placed.cell.row := by
  rw [← entry.buffer]
  exact (PlacedCell.laid_of_read entry.read).row

/-- The key of a record that begins with a cell is the row of that cell, where it is. -/
theorem Entry.key {placed : PlacedCell} (first : Entry region region.offset placed) :
    Record.key region = .ok ⟨region.buffer, placed.rowOffset, placed.cell.row.length⟩ := by
  have buffer := first.buffer
  obtain ⟨_, _, within, read⟩ := first
  obtain ⟨_, _, offset, encodable, _⟩ := PlacedCell.read_eq_ok_iff.mp read
  have start : region.offset + (prefixLength + Cell.headerLength + 2) = placed.rowOffset := by
    rw [PlacedCell.rowOffset, PlacedCell.keyOffset, offset]
    show _ = region.offset + prefixLength + Cell.headerLength + 2
    omega
  have room : prefixLength + Cell.headerLength + 2 + placed.cell.row.length ≤ region.length := by
    have inside := row_within placed.cell
    rw [PlacedCell.length, Span.limit] at within
    omega
  rw [← buffer]
  exact rowAt_of_laid (PlacedCell.laid_of_read read) encodable.row buffer.symm start room

end Record

namespace Row

theorem find_of_error {row : Row} {fault : RecordFault} (fails : row.cells = .error fault)
    (term : SearchTerm) : row.find term = .error fault := by
  rw [find, fails]
  rfl

theorem read_of_error {row : Row} {fault : RecordFault} (fails : row.cells = .error fault)
    (column : Column) : column.read row = .error (.malformedRecord fault) := by
  rw [Column.read, columnValue, lookup, find_of_error fails]
  rfl

/-- **Records are split exactly, and the key is that of the first cell.**  Take a row that is seen through
a record within a buffer.  Its cells are had exactly if the record is one or more stored cells, each behind
its length of four bytes.  They are the cells that lie one behind the other from the offset of the record to
its limit, and the key that was found when the row was made is the row of the first, at its place.  Else
every lookup ends in the fault of the record.  The loop that splits the record ends on every record, after
a number of turns that its length limits. -/
theorem split_exact {region : Span} {row : Row} (made : ofRegion region = .ok row) :
    ((∃ cells, row.cells = .ok cells) ↔ Record.Concatenated region.bytes) ∧
    (∀ cells, row.cells = .ok cells ↔ Record.Entries region region.offset cells) ∧
    (∀ cells, row.cells = .ok cells → ∃ first others, cells = first :: others ∧
      row.key = ⟨region.buffer, first.rowOffset, first.cell.row.length⟩ ∧
      row.key.bytes = first.cell.row) ∧
    (∀ fault, row.cells = .error fault → (∀ term, row.find term = .error fault) ∧
      ∀ column : Column, column.read row = .error (.malformedRecord fault)) ∧
    ∃ turns, 24 * turns ≤ region.length + 24 ∧
      Record.Scanned region region.offset turns row.cells := by
  obtain ⟨inside, key, shape⟩ := ofRegion_eq_ok.mp made
  have cells : row.cells = Record.decode region := by
    rw [Row.cells, shape]
  have nonempty : 0 < region.length :=
    Nat.lt_of_lt_of_le (by decide) (Record.room_of_rowAt key).1
  rw [cells]
  refine ⟨Record.decode_concatenated inside nonempty, fun cells => Record.decode_eq_ok inside, ?_,
    fun fault fails => ?_, Record.scanned_decode inside⟩
  · intro found answer
    have before : region.offset < region.limit := Nat.lt_add_of_pos_right nonempty
    obtain ⟨first, others, same, entry⟩ :=
      ((Record.decode_eq_ok inside).mp answer).exists_first before
    have place : row.key = _ := Except.ok.inj (key.symm.trans entry.key)
    refine ⟨first, others, same, place, ?_⟩
    rw [place]
    exact entry.row
  · rw [← cells] at fails
    exact ⟨find_of_error fails, read_of_error fails⟩

/-- A cell of one byte in each of row, family and qualifier. -/
def framedCell : Cell := ⟨[114], [102], [113], Signed.zero 64, 4, []⟩

/-- The record of that cell, between other bytes of a buffer. -/
def framedRegion : Span := ⟨[255] ++ Record.entry framedCell.bytes ++ [0, 0], 1, 27⟩

theorem concatenated_framedRegion : Record.Concatenated framedRegion.bytes := by
  have enterable : Record.Enterable framedCell :=
    ⟨⟨by decide, by decide, by decide, by decide⟩, by decide⟩
  refine ⟨[framedCell.bytes], List.cons_ne_nil _ _, by decide, ?_⟩
  intro stored member
  exact Record.enterable_iff.mpr ⟨framedCell, enterable, (List.mem_singleton.mp member).symm⟩

theorem split_exact_framedRegion :
    ∃ row first others, ofRegion framedRegion = .ok row ∧ row.cells = .ok (first :: others) ∧
      row.key = ⟨framedRegion.buffer, 15, 1⟩ ∧ first.cell.row = [114] := by
  have made : ofRegion framedRegion =
      .ok ⟨⟨framedRegion.buffer, 15, 1⟩, .record framedRegion none⟩ := rfl
  obtain ⟨accepts, _, keys, _⟩ := split_exact made
  obtain ⟨cells, answer⟩ := accepts.mpr concatenated_framedRegion
  obtain ⟨first, others, same, _, key⟩ := keys cells answer
  exact ⟨_, first, others, made, same ▸ answer, rfl, key.symm⟩

end Row

end WideRow
