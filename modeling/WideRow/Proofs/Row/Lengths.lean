import WideRow.Proofs.Row.Shapes

/-!
# The lengths in a record

A record holds each cell behind its length.  Writing checks that the lengths of key and value each fit the
four bytes of their fields, but the length in front of the cell counts its header, its key and its value
together, and of a greater length only the lowest four bytes are written.

* `Record.Prefixed` : the lengths in a record are those of its cells;
* `Record.decodeFrom_long` : what a reader finds at a cell that is too long for its length;
* `Record.written_right_iff` : the cells whose record is right;
* `Record.wrong_length_written` : a cell whose record is not.
-/

namespace WideRow

namespace Record

/-- The bytes are the stored forms of the cells, each behind four bytes that hold its whole length. -/
inductive Prefixed : Bytes → List Cell → Prop
  | ended : Prefixed [] []
  | entry {field : Bytes} {cell : Cell} {others : Bytes} {cells : List Cell}
      (four : field.length = 4) (whole : Bytes.ofBigEndian field = cell.bytes.length)
      (later : Prefixed others cells) : Prefixed (field ++ cell.bytes ++ others) (cell :: cells)

/-- Four bytes hold no length beyond theirs. -/
theorem Prefixed.short {bytes : Bytes} {cells : List Cell} (prefixed : Prefixed bytes cells) :
    ∀ cell ∈ cells, cell.encodedLength ≤ 4294967295 := by
  induction prefixed with
  | ended => exact List.forall_mem_nil _
  | @entry field cell _ _ four whole _ ih =>
    have below := Bytes.ofBigEndian_lt field
    rw [four, whole, Cell.bytes_length] at below
    exact List.forall_mem_cons.mpr ⟨Nat.le_of_lt_succ below, ih⟩

theorem prefixed_entries {cells : List Cell} (short : ∀ cell ∈ cells, cell.encodedLength ≤ 4294967295) :
    Prefixed (cells.flatMap fun cell => entry cell.bytes) cells := by
  induction cells with
  | nil => exact .ended
  | cons cell rest ih =>
    obtain ⟨first, later⟩ := List.forall_mem_cons.mp short
    have whole := (ofBigEndian_length_of_short first).trans cell.bytes_length.symm
    exact .entry (Bytes.bigEndian_length _ _) whole (ih later)

/-! ### Cells that are refused -/

theorem encodable_of_encode {cells : List Cell} {record : Bytes} (written : encode cells = .ok record) :
    ∀ cell ∈ cells, cell.Encodable := by
  cases stored : cells.mapM Cell.encode with
  | error fault =>
    rw [encode, stored] at written
    cases written
  | ok results =>
    intro cell member
    obtain ⟨_, done⟩ := exists_ok_of_mapM stored cell member
    exact Cell.encodable_of_encode done

/-- Cells are refused exactly if the lengths of one of them do not fit their fields. -/
theorem encode_eq_error {cells : List Cell} :
    (∃ fault, encode cells = .error fault) ↔ ∃ cell ∈ cells, ¬ cell.Encodable := by
  constructor
  · intro ⟨fault, refused⟩
    by_contra fits
    push Not at fits
    rw [encode_eq_ok fits] at refused
    cases refused
  · intro ⟨cell, member, outside⟩
    cases written : encode cells with
    | error fault => exact ⟨fault, rfl⟩
    | ok record => exact absurd (encodable_of_encode written cell member) outside

end Record

/-! ### Cells that are too long -/

namespace Cell

/-- What four bytes hold of the length of the cell. -/
def lowLength (cell : Cell) : Nat := cell.encodedLength % 4294967296

/-- What is wrong with the beginning of a cell that is too long. -/
def cutFault (cell : Cell) : RecordFault :=
  if cell.lowLength < headerLength then .noCellHeader cell.lowLength
  else .lengthsDisagree cell.keyLength cell.value.length cell.lowLength

/-- Of a length one beyond the greatest that four bytes hold, nothing is left. -/
theorem cutFault_of_length {cell : Cell} (size : cell.encodedLength = 4294967296) :
    cell.cutFault = .noCellHeader 0 := by
  rw [cutFault, lowLength, size]
  rfl

/-- The beginning of the stored form of a cell is not a cell. -/
theorem decode_take {cell : Cell} (encodable : cell.Encodable) {length : Nat}
    (part : length < cell.encodedLength) :
    decode (cell.bytes.take length) = .error (if length < headerLength then .noCellHeader length
      else .lengthsDisagree cell.keyLength cell.value.length length) := by
  have size : (cell.bytes.take length).length = length := by
    rw [List.length_take, bytes_length]
    omega
  rw [decode, size]
  by_cases header : length < headerLength
  · rw [if_pos header, if_pos header]
  rw [if_neg header, if_neg header]
  have eight : headerLength = 8 := rfl
  have laid := PlacedCell.laid_alone cell
  have inside : ∀ offset, offset + 4 ≤ length →
      Bytes.slice (cell.bytes.take length) offset 4 = Bytes.slice cell.bytes offset 4 := by
    intro offset within
    have room : min 4 (length - offset) = 4 := by omega
    rw [Bytes.slice, Bytes.slice, List.drop_take, List.take_take, room]
  have key : Bytes.ofBigEndian (Bytes.slice (cell.bytes.take length) 0 4) = cell.keyLength := by
    have field : Bytes.slice cell.bytes 0 4 = Bytes.bigEndian 4 cell.keyLength := laid.keyLength
    rw [inside 0 (by omega), field]
    exact Bytes.ofBigEndian_bigEndian_of_lt (Nat.lt_succ_of_le encodable.key)
  have value : Bytes.ofBigEndian (Bytes.slice (cell.bytes.take length) 4 4) = cell.value.length := by
    have field : Bytes.slice cell.bytes 4 4 = Bytes.bigEndian 4 cell.value.length := laid.valueLength
    rw [inside 4 (by omega), field]
    exact Bytes.ofBigEndian_bigEndian_of_lt (Nat.lt_succ_of_le encodable.value)
  have apart : headerLength + cell.keyLength + cell.value.length ≠ length := by
    rw [encodedLength] at part
    omega
  simp only [key, value]
  rw [if_pos apart]

end Cell

namespace Record

theorem ofBigEndian_length (cell : Cell) :
    Bytes.ofBigEndian (Bytes.bigEndian prefixLength cell.bytes.length) = cell.lowLength := by
  rw [Bytes.ofBigEndian_bigEndian, cell.bytes_length]
  rfl

/-- A cell that is too long is not read: what follows its length is taken for a shorter cell. -/
theorem decodeFrom_long {cell : Cell} (encodable : cell.Encodable)
    (long : 4294967295 < cell.encodedLength) (others buffer : Bytes) (position : Nat) :
    decodeFrom buffer position (entry cell.bytes ++ others) = .error cell.cutFault := by
  have size := cell.bytes_length
  have low : cell.lowLength < 4294967296 := Nat.mod_lt _ (by decide)
  have part : cell.lowLength < cell.encodedLength := by omega
  have whole : cell.lowLength ≤ (cell.bytes ++ others).length := by
    rw [List.length_append]
    omega
  have beginning : (cell.bytes ++ others).take cell.lowLength = cell.bytes.take cell.lowLength :=
    List.take_append_of_le_length (by omega)
  rw [entry, List.append_assoc, decodeFrom_field (Bytes.bigEndian_length _ _)
    (ofBigEndian_length cell) whole, beginning, Cell.decode_take encodable part]
  rfl

/-- The first cell that is too long ends the reading of a record. -/
theorem decode_long {before after : List Cell} {long : Cell}
    (each : ∀ cell ∈ before, Enterable cell) (encodable : long.Encodable)
    (beyond : 4294967295 < long.encodedLength) :
    decode (Span.whole ((before ++ long :: after).flatMap fun cell => entry cell.bytes)) =
      .error long.cutFault := by
  rw [decode, Span.bytes_whole, List.flatMap_append, List.flatMap_cons]
  obtain ⟨next, found⟩ := decodeFrom_append each
    (entry long.bytes ++ after.flatMap fun cell => entry cell.bytes) _ (Span.whole _).offset
  rw [found, decodeFrom_long encodable beyond]
  rfl

/-- A row is seen through the record of some cells, whether or not these can be read. -/
theorem exists_row {cells : List Cell} (nonempty : cells ≠ [])
    (encodable : ∀ cell ∈ cells, cell.Encodable) :
    ∃ row, Row.ofRecord (cells.flatMap fun cell => entry cell.bytes) = .ok row ∧
      row.cells = decode (Span.whole (cells.flatMap fun cell => entry cell.bytes)) := by
  cases cells with
  | nil => exact absurd rfl nonempty
  | cons first rest =>
    obtain ⟨span, found, _⟩ := key_entry (encodable first List.mem_cons_self)
      (rest.flatMap fun cell => entry cell.bytes)
    have parts : (first :: rest).flatMap (fun cell : Cell => entry cell.bytes) =
        entry first.bytes ++ rest.flatMap fun cell => entry cell.bytes := List.flatMap_cons
    rw [← parts] at found
    exact ⟨_, Row.ofRegion_eq_ok.mpr ⟨Nat.le_of_eq (Nat.zero_add _), found, rfl⟩,
      Row.cells_record span _ none⟩

/-! ### When a record is right -/

/-- Some cells are refused, or their record is right: it holds them in store order behind their whole
lengths, and a row that is seen through it has these cells. -/
def WrittenRight (cells : List Cell) : Prop :=
  (∃ fault, encode cells = .error fault) ∨
    ∃ record sorted, encode cells = .ok record ∧ Cell.IsStableSort cells sorted ∧
      Prefixed record sorted ∧ (record ≠ [] → ∃ row placed, Row.ofRecord record = .ok row ∧
        row.cells = .ok placed ∧ placed.map PlacedCell.cell = sorted)

theorem writtenRight_of_enterable {cells : List Cell} (each : ∀ cell ∈ cells, Enterable cell) :
    WrittenRight cells := by
  have sortedEach : ∀ cell ∈ cells.mergeSort Cell.precedes, Enterable cell :=
    fun cell member => each cell (List.mem_mergeSort.mp member)
  refine .inr ⟨_, _, encode_eq_ok fun cell member => (each cell member).encodable,
    Cell.isStableSort_mergeSort cells, prefixed_entries fun cell member => (sortedEach cell member).short,
    fun nonempty => ?_⟩
  have some : cells.mergeSort Cell.precedes ≠ [] := by
    intro none
    rw [none] at nonempty
    exact nonempty rfl
  obtain ⟨row, made, shown⟩ := exists_row some fun cell member => (sortedEach cell member).encodable
  rw [decode_entries sortedEach] at shown
  exact ⟨row, _, made, shown, map_cell_placesFrom _ 0 _⟩

theorem writtenRight_iff {cells : List Cell} :
    WrittenRight cells ↔ (∃ cell ∈ cells, ¬ cell.Encodable) ∨
      ∀ cell ∈ cells, cell.encodedLength ≤ 4294967295 := by
  constructor
  · rintro (refused | ⟨record, sorted, written, stable, prefixed, shown⟩)
    · exact .inl (encode_eq_error.mp refused)
    · exact .inr fun cell member => prefixed.short cell (stable.perm.mem_iff.mpr member)
  · rintro (outside | short)
    · exact .inl (encode_eq_error.mpr outside)
    · by_cases encodable : ∀ cell ∈ cells, cell.Encodable
      · exact writtenRight_of_enterable fun cell member => ⟨encodable cell member, short cell member⟩
      · push Not at encodable
        exact .inl (encode_eq_error.mpr encodable)

/-- The record of cells of which one is too long is written, and is not read. -/
theorem exists_row_long {cells before after : List Cell} {long : Cell}
    (sorted : cells.mergeSort Cell.precedes = before ++ long :: after)
    (encodable : ∀ cell ∈ cells, cell.Encodable)
    (short : ∀ cell ∈ before, cell.encodedLength ≤ 4294967295)
    (beyond : 4294967295 < long.encodedLength) :
    ∃ record row, encode cells = .ok record ∧ Row.ofRecord record = .ok row ∧
      row.cells = .error long.cutFault := by
  have each : ∀ cell ∈ before ++ long :: after, cell.Encodable := by
    intro cell member
    rw [← sorted] at member
    exact encodable cell (List.mem_mergeSort.mp member)
  have enterable : ∀ cell ∈ before, Enterable cell := fun cell member =>
    ⟨each cell (List.mem_append_left _ member), short cell member⟩
  have some : before ++ long :: after ≠ [] :=
    List.append_ne_nil_of_right_ne_nil _ (List.cons_ne_nil long after)
  have written := encode_eq_ok encodable
  obtain ⟨row, made, shown⟩ := exists_row some each
  rw [sorted] at written
  rw [decode_long enterable (each long (List.mem_append_right _ List.mem_cons_self)) beyond] at shown
  exact ⟨_, row, written, made, shown⟩

/-- A cell of zeros, of which only the qualifier and the value have a length. -/
def blank (qualifier value : Nat) : Cell :=
  ⟨[], [], List.replicate qualifier 0, Signed.wrap 64 1, 4, List.replicate value 0⟩

theorem encodedLength_blank (qualifier value : Nat) :
    (blank qualifier value).encodedLength = 20 + qualifier + value := by
  simp only [Cell.encodedLength, Cell.keyLength, Cell.headerLength, Cell.keyOverhead, blank,
    List.length_nil, List.length_replicate]
  omega

theorem encodable_blank {qualifier value : Nat} (key : 12 + qualifier ≤ 4294967295)
    (fits : value ≤ 4294967295) : (blank qualifier value).Encodable where
  row := Nat.zero_le _
  family := Nat.zero_le _
  key := by
    simp only [Cell.keyLength, Cell.keyOverhead, blank, List.length_nil, List.length_replicate]
    omega
  value := by
    simp only [blank, List.length_replicate]
    omega

theorem precedes_blank (qualifier value other : Nat) :
    Cell.precedes (blank 0 value) (blank (qualifier + 1) other) = true := by
  have less : Cell.order (blank 0 value) (blank (qualifier + 1) other) = .lt := by
    rw [Cell.order, blank, blank, List.replicate_succ]
    rfl
  rw [Cell.precedes, less]
  rfl

/-- **A record is right exactly if no cell is too long for its length.**  Some cells are refused exactly if
the lengths of one of them do not fit its fields.  Else a record is written.  It holds the cells in store
order behind their whole lengths, and is read as these cells, exactly if none is longer than four bytes can
tell.  If one is, the first such cell in store order ends the reading: its beginning, as long as the four
bytes tell, is taken for a cell, and is not one. -/
theorem written_right_iff (cells : List Cell) :
    ((∃ fault, encode cells = .error fault) ↔ ∃ cell ∈ cells, ¬ cell.Encodable) ∧
    (WrittenRight cells ↔ (∃ cell ∈ cells, ¬ cell.Encodable) ∨
      ∀ cell ∈ cells, cell.encodedLength ≤ 4294967295) ∧
    ∀ before long after, cells.mergeSort Cell.precedes = before ++ long :: after →
      (∀ cell ∈ before, cell.encodedLength ≤ 4294967295) → 4294967295 < long.encodedLength →
      (∃ cell ∈ cells, ¬ cell.Encodable) ∨ ∃ record row, encode cells = .ok record ∧
        Row.ofRecord record = .ok row ∧ row.cells = .error long.cutFault := by
  refine ⟨encode_eq_error, writtenRight_iff, fun before long after sorted short beyond => ?_⟩
  by_cases encodable : ∀ cell ∈ cells, cell.Encodable
  · exact .inr (exists_row_long sorted encodable short beyond)
  · push Not at encodable
    exact .inl encodable

/-- A cell that could be read is not, since the cell behind it is too long. -/
theorem written_right_iff_two :
    ∃ record row, encode [blank 0 0, blank (65515 + 1) 4294901760] = .ok record ∧
      Row.ofRecord record = .ok row ∧ row.cells = .error (.noCellHeader 0) := by
  have size : (blank (65515 + 1) 4294901760).encodedLength = 4294967296 := encodedLength_blank _ _
  have encodable : (blank (65515 + 1) 4294901760).Encodable := encodable_blank (by omega) (by omega)
  have precedes := precedes_blank 65515 0 4294901760
  generalize blank (65515 + 1) 4294901760 = long at size encodable precedes ⊢
  have fault := Cell.cutFault_of_length size
  have sorted : [blank 0 0, long].mergeSort Cell.precedes = [blank 0 0] ++ long :: [] :=
    List.mergeSort_of_pairwise (List.pairwise_pair.mpr precedes)
  have short : ∀ cell ∈ [blank 0 0], cell.encodedLength ≤ 4294967295 :=
    List.forall_mem_singleton.mpr (by decide)
  rcases (written_right_iff [blank 0 0, long]).2.2 _ long [] sorted short (by omega) with
    ⟨cell, member, outside⟩ | ⟨record, row, written, made, shown⟩
  · refine absurd ?_ outside
    rcases List.mem_pair.mp member with rfl | rfl
    · exact encodable_blank (by decide) (by decide)
    · exact encodable
  · exact ⟨record, row, written, made, fault ▸ shown⟩

/-- Key and value fit their fields.  The whole cell is one byte too long for its length, which is written
as zero. -/
theorem wrong_length_written :
    (blank 65516 4294901760).encodedLength = 4294967296 ∧
    (∃ record row, encode [blank 65516 4294901760] = .ok record ∧
      Bytes.ofBigEndian (record.take 4) = 0 ∧ Row.ofRecord record = .ok row ∧
      row.cells = .error (.noCellHeader 0)) ∧
    ¬ WrittenRight [blank 65516 4294901760] := by
  have size : (blank 65516 4294901760).encodedLength = 4294967296 := encodedLength_blank _ _
  have encodable : (blank 65516 4294901760).Encodable := encodable_blank (by omega) (by omega)
  generalize blank 65516 4294901760 = long at size encodable ⊢
  have low : long.lowLength = 0 := by
    rw [Cell.lowLength, size]
  have fault := Cell.cutFault_of_length size
  have beyond : 4294967295 < long.encodedLength := by omega
  have only : ∀ cell ∈ [long], cell.Encodable := List.forall_mem_singleton.mpr encodable
  have sorted : [long].mergeSort Cell.precedes = [] ++ [long] := List.mergeSort_singleton long
  have written := encode_eq_ok only
  obtain ⟨record, row, encoded, made, shown⟩ :=
    exists_row_long sorted only (List.forall_mem_nil _) beyond
  rw [encoded, sorted, List.nil_append, List.flatMap_singleton] at written
  injection written with record_eq
  refine ⟨size, ⟨record, row, encoded, ?_, made, fault ▸ shown⟩, fun right => ?_⟩
  · have front : (entry long.bytes).take 4 = Bytes.bigEndian prefixLength long.bytes.length :=
      List.take_left' (Bytes.bigEndian_length _ _)
    rw [record_eq, front, ofBigEndian_length, low]
  · rcases writtenRight_iff.mp right with ⟨cell, member, outside⟩ | short
    · exact outside (only cell member)
    · exact Nat.not_le.mpr beyond (short long List.mem_cons_self)

end Record

end WideRow
