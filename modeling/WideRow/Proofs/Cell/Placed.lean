import WideRow.Cell.Placed
import WideRow.Proofs.Cell.Format

/-!
# Cells in their places

A placed cell is `Laid` if each of its parts is where its place says, from the lengths in the header to
the value.  The places follow one another without gap or overlap (`PlacedCell.contiguous`), so being laid
is the same as filling the span with the stored form (`PlacedCell.laid_iff`).  Reading a span finds
exactly the cells that fill it (`PlacedCell.read_eq_ok_iff`), and with that it undoes writing.
-/

namespace WideRow

namespace PlacedCell

open Bytes

/-! ### Parts and places -/

/-- Each part of the cell is where its place says. -/
structure Laid (placed : PlacedCell) : Prop where
  keyLength : slice placed.buffer placed.offset 4 = bigEndian 4 placed.cell.keyLength
  valueLength : slice placed.buffer (placed.offset + 4) 4 = bigEndian 4 placed.cell.value.length
  rowLength : slice placed.buffer placed.keyOffset 2 = bigEndian 2 placed.cell.row.length
  row : slice placed.buffer placed.rowOffset placed.cell.row.length = placed.cell.row
  familyLength : slice placed.buffer (placed.rowOffset + placed.cell.row.length) 1 =
    [UInt8.ofNat placed.cell.family.length]
  family : slice placed.buffer placed.familyOffset placed.cell.family.length = placed.cell.family
  qualifier : slice placed.buffer placed.qualifierOffset placed.cell.qualifier.length =
    placed.cell.qualifier
  timestamp : slice placed.buffer placed.timestampOffset 8 =
    bigEndian 8 placed.cell.timestamp.pattern
  type : slice placed.buffer placed.typeOffset 1 = [placed.cell.typeCode]
  value : slice placed.buffer placed.valueOffset placed.cell.value.length = placed.cell.value

/-- Every part of a cell starts where the one before it ends, and the last one ends with the cell. -/
structure Contiguous (placed : PlacedCell) : Prop where
  key : placed.keyOffset = placed.offset + 4 + 4
  row : placed.rowOffset = placed.keyOffset + 2
  family : placed.familyOffset = placed.rowOffset + placed.cell.row.length + 1
  qualifier : placed.qualifierOffset = placed.familyOffset + placed.cell.family.length
  timestamp : placed.timestampOffset = placed.qualifierOffset + placed.cell.qualifier.length
  type : placed.typeOffset = placed.timestampOffset + 8
  value : placed.valueOffset = placed.typeOffset + 1
  limit : placed.span.limit = placed.valueOffset + placed.cell.value.length

theorem contiguous (placed : PlacedCell) : placed.Contiguous := by
  have key : placed.cell.keyLength = 12 + placed.cell.row.length + placed.cell.family.length +
      placed.cell.qualifier.length := rfl
  constructor <;>
    simp only [keyOffset, rowOffset, familyOffset, qualifierOffset, timestampOffset, typeOffset,
      valueOffset, Span.limit, span, length, Cell.encodedLength, Cell.headerLength] <;> omega

theorem laid_iff_tiles (placed : PlacedCell) :
    placed.Laid ↔ Tiles placed.buffer placed.offset placed.cell.parts := by
  have places := placed.contiguous
  simp only [Cell.parts, Cell.keyParts, List.cons_append, List.nil_append, Tiles, bigEndian_length,
    List.length_singleton, ← places.key, ← places.row, ← places.family, ← places.qualifier,
    ← places.timestamp, ← places.type, ← places.value]
  constructor
  · intro laid
    exact ⟨laid.keyLength, laid.valueLength, laid.rowLength, laid.row, laid.familyLength,
      laid.family, laid.qualifier, laid.timestamp, laid.type, laid.value, trivial⟩
  · intro tiles
    obtain ⟨keyLength, valueLength, rowLength, row, familyLength, family, qualifier, timestamp, type,
      value, _⟩ := tiles
    exact ⟨keyLength, valueLength, rowLength, row, familyLength, family, qualifier, timestamp, type,
      value⟩

/-- The parts of a cell are in their places exactly when its span is filled with the stored form. -/
theorem laid_iff (placed : PlacedCell) :
    placed.Laid ↔ slice placed.buffer placed.offset placed.cell.encodedLength = placed.cell.bytes := by
  rw [laid_iff_tiles, tiles_iff, Cell.flatten_parts, Cell.bytes_length]

/-! ### Reading a span -/

/-- The cell that fills a span is read exactly when the span lies in its buffer and covers the stored
form of that cell. -/
theorem read_eq_ok_iff {span : Span} {placed : PlacedCell} :
    read span = .ok placed ↔ span.limit ≤ span.buffer.length ∧ placed.buffer = span.buffer ∧
      placed.offset = span.offset ∧ placed.cell.Encodable ∧ span.bytes = placed.cell.bytes := by
  rw [read]
  split
  · rename_i outside
    constructor
    · intro refused
      cases refused
    · intro ⟨inside, _⟩
      exact absurd outside (Nat.not_lt.mpr inside)
  · rename_i inside
    cases decoded : Cell.decode span.bytes with
    | error fault =>
      constructor
      · intro refused
        cases refused
      · intro ⟨_, _, _, encodable, same⟩
        rw [Cell.decode_eq_ok_iff.mpr ⟨encodable, same⟩] at decoded
        cases decoded
    | ok cell =>
      obtain ⟨encodable, same⟩ := Cell.decode_eq_ok_iff.mp decoded
      constructor
      · intro read
        injection read with read
        subst read
        exact ⟨Nat.not_lt.mp inside, rfl, rfl, encodable, same⟩
      · intro ⟨_, buffer, offset, encodable', same'⟩
        rw [Cell.decode_eq_ok_iff.mpr ⟨encodable', same'⟩] at decoded
        injection decoded with decoded
        obtain ⟨_, _, _⟩ := placed
        simp only at buffer offset decoded
        rw [buffer, offset, decoded]

/-- A cell that was read is where it was looked for. -/
theorem span_of_read {span : Span} {placed : PlacedCell} (found : read span = .ok placed) :
    placed.span = span := by
  obtain ⟨inside, buffer, offset, _, filled⟩ := read_eq_ok_iff.mp found
  have length := congrArg List.length filled
  rw [Cell.bytes_length, Span.bytes, slice_length] at length
  rw [Span.limit] at inside
  obtain ⟨_, _, _⟩ := span
  simp only at inside length buffer offset
  rw [PlacedCell.span, PlacedCell.length, buffer, offset, ← length, Nat.min_eq_left (by omega)]

theorem laid_of_read {span : Span} {placed : PlacedCell} (found : read span = .ok placed) :
    placed.Laid := by
  obtain ⟨_, _, _, _, filled⟩ := read_eq_ok_iff.mp found
  rw [← span_of_read found] at filled
  exact placed.laid_iff.mpr filled

/-- A cell is read from where its stored form is. -/
theorem read_of_parts {cell : Cell} (encodable : cell.Encodable) {buffer before after : Bytes}
    (parts : buffer = before ++ cell.bytes ++ after) :
    read ⟨buffer, before.length, cell.encodedLength⟩ = .ok ⟨buffer, before.length, cell⟩ := by
  refine read_eq_ok_iff.mpr ⟨?_, rfl, rfl, encodable, ?_⟩
  · have size := congrArg List.length parts
    rw [List.length_append, List.length_append, Cell.bytes_length] at size
    exact size ▸ Nat.le_add_right _ _
  · rw [Span.bytes, ← Cell.bytes_length]
    exact slice_of_append parts

/-- Reading accepts exactly the stored form of cells and undoes writing.  A span is read if and only if
it lies in its buffer and covers the stored form of a cell whose lengths fit their fields; that cell is
the one that is read, and its parts fill the span without gap or overlap.  Writing either appends the
stored form of its length, which is read back as the cell, or fails and appends nothing. -/
theorem read_inverts_write :
    (∀ (buffer : Bytes) (offset length : Nat),
      (∃ placed, read ⟨buffer, offset, length⟩ = .ok placed) ↔
        offset + length ≤ buffer.length ∧
          ∃ cell : Cell, cell.Encodable ∧ slice buffer offset length = cell.bytes) ∧
    (∀ (buffer : Bytes) (offset length : Nat) (placed : PlacedCell),
      read ⟨buffer, offset, length⟩ = .ok placed ↔
        offset + length ≤ buffer.length ∧ placed.span = ⟨buffer, offset, length⟩ ∧
          placed.cell.Encodable ∧ slice buffer offset length = placed.cell.bytes ∧
          placed.Laid ∧ placed.Contiguous) ∧
    ∀ (out : Bytes) (cell : Cell),
      (cell.Encodable ∧ cell.bytes.length = cell.encodedLength ∧
        cell.write.run out = .ok cell.encodedLength (out ++ cell.bytes) ∧
        read ⟨out ++ cell.bytes, out.length, cell.encodedLength⟩ =
          .ok ⟨out ++ cell.bytes, out.length, cell⟩) ∨
      (¬ cell.Encodable ∧ ∃ fault, cell.write.run out = .error fault out) := by
  refine ⟨?accepts, ?reads, ?writes⟩
  case accepts =>
    intro buffer offset length
    constructor
    · intro ⟨placed, found⟩
      obtain ⟨inside, _, _, encodable, filled⟩ := read_eq_ok_iff.mp found
      exact ⟨inside, placed.cell, encodable, filled⟩
    · intro ⟨inside, cell, encodable, filled⟩
      exact ⟨⟨buffer, offset, cell⟩, read_eq_ok_iff.mpr ⟨inside, rfl, rfl, encodable, filled⟩⟩
  case reads =>
    intro buffer offset length placed
    constructor
    · intro found
      obtain ⟨inside, _, _, encodable, filled⟩ := read_eq_ok_iff.mp found
      exact ⟨inside, span_of_read found, encodable, filled, laid_of_read found, placed.contiguous⟩
    · intro ⟨inside, place, encodable, filled, _, _⟩
      injection place with buffer_eq offset_eq
      exact read_eq_ok_iff.mpr ⟨inside, buffer_eq, offset_eq, encodable, filled⟩
  case writes =>
    intro out cell
    cases fits : cell.checkLengths with
    | ok _ =>
      have encodable := Cell.checkLengths_eq_ok.mp fits
      exact .inl ⟨encodable, cell.bytes_length, Cell.write_of_encodable encodable out,
        read_of_parts encodable (List.append_nil _).symm⟩
    | error fault =>
      refine .inr ⟨fun encodable => ?_, fault, Cell.write_of_error fits out⟩
      rw [Cell.checkLengths_eq_ok.mpr encodable] at fits
      cases fits

end PlacedCell

end WideRow
