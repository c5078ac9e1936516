import WideRow.Cell.Basic

/-!
# The stored form of cells

A cell is `Encodable` if its lengths fit their fields.  Its stored form is the concatenation of its
`parts`.  Parts that lie one behind the other in a buffer are told from what they make together
(`Bytes.tiles_iff`), so that each length that a reader checks gives the place of the next part.
Reading a byte string finds a cell exactly when the byte string is the stored form of that cell
(`Cell.decode_eq_ok_iff`).
-/

namespace WideRow

namespace Cell

/-- The lengths of the cell fit their fields. -/
structure Encodable (cell : Cell) : Prop where
  row : cell.row.length ≤ 32767
  family : cell.family.length ≤ 255
  key : cell.keyLength ≤ 4294967295
  value : cell.value.length ≤ 4294967295

theorem checkLengths_eq_ok {cell : Cell} : cell.checkLengths = .ok () ↔ cell.Encodable := by
  simp only [checkLengths]
  constructor
  · intro fits
    split at fits
    · cases fits
    split at fits
    · cases fits
    split at fits
    · cases fits
    · exact ⟨by omega, by omega, by omega, by omega⟩
  · intro encodable
    have row := encodable.row
    have family := encodable.family
    have key := encodable.key
    have value := encodable.value
    rw [if_neg (by omega), if_neg (by omega), if_neg (by omega)]

/-! ### Writing -/

theorem write_of_error {cell : Cell} {fault : RecordFault}
    (refused : cell.checkLengths = .error fault) (out : Bytes) :
    cell.write.run out = .error fault out := by
  rw [write, refused]
  rfl

theorem write_of_encodable {cell : Cell} (encodable : cell.Encodable) (out : Bytes) :
    cell.write.run out = .ok cell.encodedLength (out ++ cell.bytes) := by
  have whole : out ++ (Bytes.bigEndian 4 cell.keyLength ++ Bytes.bigEndian 4 cell.value.length ++
      Bytes.bigEndian 2 cell.row.length) ++ cell.row ++ [UInt8.ofNat cell.family.length] ++
      cell.family ++ cell.qualifier ++ Bytes.bigEndian 8 cell.timestamp.pattern ++
      [cell.typeCode] ++ cell.value = out ++ cell.bytes := by
    simp only [bytes, keyBytes, List.append_assoc, List.cons_append, List.nil_append]
  have run : ∃ written, written = out ++ cell.bytes ∧
      cell.write.run out = .ok (written.length - out.length) written := by
    refine ⟨_, whole, ?_⟩
    rw [write, checkLengths_eq_ok.mpr encodable]
    rfl
  obtain ⟨written, same, run⟩ := run
  rw [run, same, List.length_append, bytes_length, Nat.add_sub_cancel_left]

/-- What is written behind other bytes is what is written alone. -/
theorem appendTo_eq (out : Bytes) (cell : Cell) :
    cell.appendTo out = cell.encode.map fun stored => out ++ stored := by
  cases fits : cell.checkLengths with
  | error fault =>
    rw [appendTo, write_of_error fits, encode, fits]
    rfl
  | ok _ =>
    rw [appendTo, write_of_encodable (checkLengths_eq_ok.mp fits), encode, fits]
    rfl

end Cell

/-! ### Parts behind one another -/

namespace Bytes

/-- The parts lie in the buffer one behind the other, the first one at the offset. -/
def Tiles (buffer : Bytes) : Nat → List Bytes → Prop
  | _, [] => True
  | offset, part :: rest =>
    slice buffer offset part.length = part ∧ Tiles buffer (offset + part.length) rest

/-- Parts lie one behind the other exactly when what they make together lies there. -/
theorem tiles_iff {buffer : Bytes} {offset : Nat} {parts : List Bytes} :
    Tiles buffer offset parts ↔ slice buffer offset parts.flatten.length = parts.flatten := by
  induction parts generalizing offset with
  | nil => exact ⟨fun _ => rfl, fun _ => trivial⟩
  | cons part rest ih =>
    rw [Tiles, ih, List.flatten_cons, List.length_append, ← slice_append_slice]
    constructor
    · intro ⟨first, others⟩
      rw [first, others]
    · intro whole
      have lengths := congrArg List.length whole
      simp only [List.length_append, slice_length] at lengths
      exact List.append_inj whole (by rw [slice_length]; omega)

end Bytes

namespace Cell

/-- The parts of a key. -/
def keyParts (cell : Cell) : List Bytes :=
  [Bytes.bigEndian 2 cell.row.length, cell.row, [UInt8.ofNat cell.family.length], cell.family,
    cell.qualifier, Bytes.bigEndian 8 cell.timestamp.pattern, [cell.typeCode]]

/-- The parts of the stored form. -/
def parts (cell : Cell) : List Bytes :=
  [Bytes.bigEndian 4 cell.keyLength, Bytes.bigEndian 4 cell.value.length] ++ cell.keyParts ++
    [cell.value]

theorem flatten_keyParts (cell : Cell) : cell.keyParts.flatten = cell.keyBytes := by
  simp only [keyParts, keyBytes, List.flatten_cons, List.flatten_nil, List.append_assoc,
    List.cons_append, List.nil_append, List.append_nil]

theorem flatten_parts (cell : Cell) : cell.parts.flatten = cell.bytes := by
  simp only [parts, bytes, List.flatten_append, flatten_keyParts, List.flatten_cons,
    List.flatten_nil, List.append_nil, List.append_assoc]

/-! ### The parts of a key -/

/-- Each part of a key is behind the one before it. -/
structure KeyLaid (key : Bytes) (cell : Cell) : Prop where
  rowLength : Bytes.slice key 0 2 = Bytes.bigEndian 2 cell.row.length
  row : Bytes.slice key 2 cell.row.length = cell.row
  familyLength : Bytes.slice key (2 + cell.row.length) 1 = [UInt8.ofNat cell.family.length]
  family : Bytes.slice key (2 + cell.row.length + 1) cell.family.length = cell.family
  qualifier : Bytes.slice key (2 + cell.row.length + 1 + cell.family.length)
    cell.qualifier.length = cell.qualifier
  timestamp : Bytes.slice key
    (2 + cell.row.length + 1 + cell.family.length + cell.qualifier.length) 8 =
      Bytes.bigEndian 8 cell.timestamp.pattern
  type : Bytes.slice key
    (2 + cell.row.length + 1 + cell.family.length + cell.qualifier.length + 8) 1 = [cell.typeCode]

theorem keyLaid_iff_tiles {key : Bytes} {cell : Cell} :
    KeyLaid key cell ↔ Bytes.Tiles key 0 cell.keyParts := by
  simp only [keyParts, Bytes.Tiles, Bytes.bigEndian_length, List.length_singleton, Nat.zero_add]
  constructor
  · intro laid
    exact ⟨laid.rowLength, laid.row, laid.familyLength, laid.family, laid.qualifier, laid.timestamp,
      laid.type, trivial⟩
  · intro tiles
    obtain ⟨rowLength, row, familyLength, family, qualifier, timestamp, type, _⟩ := tiles
    exact ⟨rowLength, row, familyLength, family, qualifier, timestamp, type⟩

theorem keyLaid_iff {key : Bytes} {cell : Cell} (size : key.length = cell.keyLength) :
    KeyLaid key cell ↔ key = cell.keyBytes := by
  rw [keyLaid_iff_tiles, Bytes.tiles_iff, flatten_keyParts, keyBytes_length, ← size, Bytes.slice_all]

theorem keyLaid_keyBytes (cell : Cell) : KeyLaid cell.keyBytes cell :=
  (keyLaid_iff cell.keyBytes_length).mpr rfl

/-! ### Lengths and timestamps in a key -/

theorem rowLength_eq {key : Bytes} (long : 2 ≤ key.length)
    (nonneg : 0 ≤ (Signed.wrap 16 (Bytes.ofBigEndian (key.take 2))).val) :
    ((Signed.wrap 16 (Bytes.ofBigEndian (key.take 2))).val.toNat ≤ 32767) ∧
      key.take 2 = Bytes.bigEndian 2 (Signed.wrap 16 (Bytes.ofBigEndian (key.take 2))).val.toNat := by
  have two : (key.take 2).length = 2 := by
    rw [List.length_take]
    omega
  have small : Bytes.ofBigEndian (key.take 2) < 2 * Signed.half 16 := by
    have below := Bytes.ofBigEndian_lt (key.take 2)
    rw [two] at below
    exact below
  have written := Bytes.bigEndian_ofBigEndian (key.take 2)
  have value := Signed.val_wrap_natCast small
  rw [two] at written
  rw [Signed.half_sixteen] at small value
  split at value
  · rename_i lower
    rw [value, Int.toNat_natCast, written]
    exact ⟨Nat.le_of_lt_succ lower, rfl⟩
  · omega

theorem rowLength_bigEndian {n : Nat} (small : n ≤ 32767) :
    (Signed.wrap 16 (Bytes.ofBigEndian (Bytes.bigEndian 2 n))).val = n := by
  have room : Bytes.room 2 = 65536 := rfl
  have half := Signed.half_sixteen
  rw [Bytes.ofBigEndian_bigEndian_of_lt (by omega), Signed.val_wrap_natCast (by omega)]
  exact if_pos (by omega)

theorem bigEndian_pattern_wrap {bytes : Bytes} (eight : bytes.length = 8) :
    Bytes.bigEndian 8 (Signed.wrap 64 (Bytes.ofBigEndian bytes)).pattern = bytes := by
  have written := Bytes.bigEndian_ofBigEndian bytes
  have small : Bytes.ofBigEndian bytes < 2 * Signed.half 64 := by
    have below := Bytes.ofBigEndian_lt bytes
    rw [eight] at below
    exact below
  have pattern := Signed.pattern_wrap 64 (Bytes.ofBigEndian bytes)
  rw [Int.emod_eq_of_lt (Int.natCast_nonneg _) (by omega)] at pattern
  rw [eight] at written
  rw [Int.ofNat_inj.mp pattern, written]

theorem wrap_ofBigEndian_pattern (x : Timestamp) :
    Signed.wrap 64 (Bytes.ofBigEndian (Bytes.bigEndian 8 x.pattern)) = x := by
  have small : x.pattern < Bytes.room 8 := x.pattern_lt
  rw [Bytes.ofBigEndian_bigEndian_of_lt small, Signed.wrap_pattern]

/-! ### Reading a key -/

/-- The checks on a key: a length for the row that is not negative, and room for the row and the family. -/
theorem decodeKey_eq_ok_ofKey {key value : Bytes} {cell : Cell} :
    decodeKey key value = .ok cell ↔
      ∃ rowLength familyLength, rowLength ≤ 32767 ∧ key.take 2 = Bytes.bigEndian 2 rowLength ∧
        (key.getD (2 + rowLength) 0).toNat = familyLength ∧
        keyOverhead + rowLength + familyLength ≤ key.length ∧
        cell = ofKey key value rowLength familyLength := by
  simp only [decodeKey]
  constructor
  · intro read
    split at read
    · cases read
    split at read
    · cases read
    split at read
    · cases read
    split at read
    · cases read
    · rename_i long nonneg _ room
      injection read with same
      have long : 2 ≤ key.length := by
        unfold keyOverhead at long
        omega
      obtain ⟨small, written⟩ := rowLength_eq long (Int.not_lt.mp nonneg)
      exact ⟨_, _, small, written, rfl, Nat.not_lt.mp room, same.symm⟩
  · intro ⟨rowLength, familyLength, small, written, family, room, same⟩
    rw [written, rowLength_bigEndian small, Int.toNat_natCast, family]
    rw [if_neg (by omega), if_neg (by omega), if_neg (by omega), if_neg (by omega), same]

theorem ofKey_lengths {key : Bytes} (value : Bytes) {rowLength familyLength : Nat}
    (room : keyOverhead + rowLength + familyLength ≤ key.length) :
    (ofKey key value rowLength familyLength).row.length = rowLength ∧
      (ofKey key value rowLength familyLength).family.length = familyLength ∧
      (ofKey key value rowLength familyLength).keyLength = key.length := by
  have overhead : keyOverhead = 12 := rfl
  have row : (ofKey key value rowLength familyLength).row.length = rowLength := by
    simp only [ofKey, Bytes.slice_length]
    omega
  have family : (ofKey key value rowLength familyLength).family.length = familyLength := by
    simp only [ofKey, Bytes.slice_length]
    omega
  have qualifier : (ofKey key value rowLength familyLength).qualifier.length =
      key.length - (keyOverhead + rowLength + familyLength) := by
    simp only [ofKey, Bytes.slice_length]
    omega
  refine ⟨row, family, ?_⟩
  rw [keyLength, row, family, qualifier]
  omega

/-- The parts that are read from a key lie in it one behind the other. -/
theorem keyLaid_ofKey {key : Bytes} (value : Bytes) {rowLength familyLength : Nat}
    (room : keyOverhead + rowLength + familyLength ≤ key.length)
    (row : key.take 2 = Bytes.bigEndian 2 rowLength)
    (family : (key.getD (2 + rowLength) 0).toNat = familyLength) :
    KeyLaid key (ofKey key value rowLength familyLength) := by
  obtain ⟨rowSize, familySize, size⟩ := ofKey_lengths value room
  have overhead : keyOverhead = 12 := rfl
  have qualifierSize : (ofKey key value rowLength familyLength).qualifier.length =
      key.length - (keyOverhead + rowLength + familyLength) := by
    rw [keyLength, rowSize, familySize] at size
    omega
  have timestampSize : (Bytes.slice key (key.length - 9) 8).length = 8 := by
    rw [Bytes.slice_length]
    omega
  have timestampStart : 2 + rowLength + 1 + familyLength +
      (key.length - (keyOverhead + rowLength + familyLength)) = key.length - 9 := by omega
  have typeStart : key.length - 9 + 8 = key.length - 1 := by omega
  have familyByte : UInt8.ofNat familyLength = key.getD (2 + rowLength) 0 := by
    rw [← family, UInt8.ofNat_toNat]
  constructor
  case rowLength =>
    rw [rowSize]
    exact row
  case row => rw [rowSize, ofKey]
  case familyLength =>
    rw [rowSize, familySize, familyByte]
    exact Bytes.slice_one (by omega)
  case family => rw [rowSize, familySize, ofKey, Nat.add_right_comm 2]
  case qualifier => rw [rowSize, familySize, qualifierSize, ofKey, Nat.add_right_comm 2]
  case timestamp =>
    rw [rowSize, familySize, qualifierSize, timestampStart]
    exact (bigEndian_pattern_wrap timestampSize).symm
  case type =>
    rw [rowSize, familySize, qualifierSize, timestampStart, typeStart]
    exact Bytes.slice_one (by omega)

/-- What is read from a key are its parts. -/
theorem ofKey_keyBytes (cell : Cell) :
    ofKey cell.keyBytes cell.value cell.row.length cell.family.length = cell := by
  have laid := cell.keyLaid_keyBytes
  have length := cell.keyBytes_length
  simp only [keyLength, keyOverhead] at length
  have familyStart : 3 + cell.row.length = 2 + cell.row.length + 1 := by omega
  have qualifierSize : cell.keyBytes.length - (12 + cell.row.length + cell.family.length) =
      cell.qualifier.length := by omega
  have timestampStart : cell.keyBytes.length - 9 =
      2 + cell.row.length + 1 + cell.family.length + cell.qualifier.length := by omega
  have typeStart : cell.keyBytes.length - 1 =
      2 + cell.row.length + 1 + cell.family.length + cell.qualifier.length + 8 := by omega
  have typeByte : [cell.keyBytes.getD (cell.keyBytes.length - 1) 0] = [cell.typeCode] := by
    rw [← laid.type, ← typeStart]
    exact (Bytes.slice_one (by omega)).symm
  injection typeByte with typeByte
  rw [ofKey, keyOverhead, familyStart, qualifierSize, timestampStart, laid.row, laid.family,
    laid.qualifier, laid.timestamp, wrap_ofBigEndian_pattern, typeByte]

/-- A key is read as a cell exactly when it is the key of that cell, with lengths that its fields
hold. -/
theorem decodeKey_eq_ok_iff {key value : Bytes} {cell : Cell} :
    decodeKey key value = .ok cell ↔ cell.row.length ≤ 32767 ∧ cell.family.length ≤ 255 ∧
      key = cell.keyBytes ∧ value = cell.value := by
  rw [decodeKey_eq_ok_ofKey]
  constructor
  · intro ⟨rowLength, familyLength, small, row, family, room, same⟩
    obtain ⟨rowSize, familySize, size⟩ := ofKey_lengths value room
    have laid := keyLaid_ofKey value room row family
    rw [← same] at rowSize familySize size laid
    refine ⟨by omega, ?_, (keyLaid_iff size.symm).mp laid, by rw [same, ofKey]⟩
    rw [familySize, ← family]
    exact Nat.le_of_lt_succ (UInt8.toNat_lt _)
  · intro ⟨row, family, key_eq, value_eq⟩
    have laid := cell.keyLaid_keyBytes
    have length := cell.keyBytes_length
    simp only [keyLength, keyOverhead] at length
    have familyByte := laid.familyLength
    rw [Bytes.slice_one (by omega)] at familyByte
    injection familyByte with familyByte
    refine ⟨cell.row.length, cell.family.length, row, ?_, ?_, ?_, ?_⟩
    · rw [key_eq]
      exact laid.rowLength
    · rw [key_eq, familyByte]
      exact UInt8.toNat_ofNat_of_lt' (Nat.lt_succ_of_le family)
    · rw [key_eq, length, keyOverhead]
      omega
    · rw [key_eq, value_eq, ofKey_keyBytes]

/-! ### Reading a cell -/

/-- The number in a four-byte field fits it and is written there. -/
theorem field_eq (stored : Bytes) (offset : Nat) (inside : offset + 4 ≤ stored.length) :
    Bytes.ofBigEndian (Bytes.slice stored offset 4) ≤ 4294967295 ∧
      Bytes.slice stored offset 4 =
        Bytes.bigEndian 4 (Bytes.ofBigEndian (Bytes.slice stored offset 4)) := by
  have four : (Bytes.slice stored offset 4).length = 4 := by
    rw [Bytes.slice_length]
    omega
  have below := Bytes.ofBigEndian_lt (Bytes.slice stored offset 4)
  have written := Bytes.bigEndian_ofBigEndian (Bytes.slice stored offset 4)
  rw [four] at below written
  exact ⟨Nat.le_of_lt_succ below, written.symm⟩

/-- What is read as a cell is the stored form of that cell. -/
theorem encodable_of_decode {stored : Bytes} {cell : Cell} (read : decode stored = .ok cell) :
    cell.Encodable ∧ stored = cell.bytes := by
  simp only [decode] at read
  split at read
  · cases read
  split at read
  · cases read
  rename_i long whole
  have header : headerLength = 8 := rfl
  obtain ⟨keyBelow, keyField⟩ := field_eq stored 0 (by omega)
  obtain ⟨valueBelow, valueField⟩ := field_eq stored 4 (by omega)
  obtain ⟨row, family, key, value⟩ := decodeKey_eq_ok_iff.mp read
  have keySize := congrArg List.length key
  have valueSize := congrArg List.length value
  rw [keyBytes_length, Bytes.slice_length] at keySize
  rw [List.length_drop] at valueSize
  have keyLength : Bytes.ofBigEndian (Bytes.slice stored 0 4) = cell.keyLength := by omega
  have valueLength : Bytes.ofBigEndian (Bytes.slice stored 4 4) = cell.value.length := by omega
  rw [keyLength] at keyBelow keyField key value
  rw [valueLength] at valueBelow valueField
  refine ⟨⟨row, family, keyBelow, valueBelow⟩, ?_⟩
  calc stored
      = Bytes.slice stored 0 (headerLength + cell.keyLength) ++
          stored.drop (headerLength + cell.keyLength) := (List.take_append_drop _ stored).symm
    _ = Bytes.slice stored 0 4 ++ Bytes.slice stored 4 4 ++
          Bytes.slice stored headerLength cell.keyLength ++
          stored.drop (headerLength + cell.keyLength) := by
        rw [← Bytes.slice_append_slice stored 0 headerLength, Nat.zero_add, header,
          ← Bytes.slice_append_slice stored 0 4 4]
    _ = cell.bytes := by
        rw [keyField, valueField, key, value, bytes]

/-- The stored form of a cell is read as that cell. -/
theorem decode_bytes {cell : Cell} (encodable : cell.Encodable) : decode cell.bytes = .ok cell := by
  have tiles : Bytes.Tiles cell.bytes 0 [Bytes.bigEndian 4 cell.keyLength,
      Bytes.bigEndian 4 cell.value.length, cell.keyBytes, cell.value] := by
    have whole : [Bytes.bigEndian 4 cell.keyLength, Bytes.bigEndian 4 cell.value.length,
        cell.keyBytes, cell.value].flatten = cell.bytes := by
      simp only [List.flatten_cons, List.flatten_nil, List.append_nil, bytes, List.append_assoc]
    rw [Bytes.tiles_iff, whole]
    exact Bytes.slice_all cell.bytes
  simp only [Bytes.Tiles, Bytes.bigEndian_length, keyBytes_length, Nat.zero_add, and_true] at tiles
  obtain ⟨keyField, valueField, key, value⟩ := tiles
  have keyLength : Bytes.ofBigEndian (Bytes.slice cell.bytes 0 4) = cell.keyLength := by
    rw [keyField]
    exact Bytes.ofBigEndian_bigEndian_of_lt (Nat.lt_succ_of_le encodable.key)
  have valueLength : Bytes.ofBigEndian (Bytes.slice cell.bytes 4 4) = cell.value.length := by
    rw [valueField]
    exact Bytes.ofBigEndian_bigEndian_of_lt (Nat.lt_succ_of_le encodable.value)
  have size : cell.bytes.length = headerLength + cell.keyLength + cell.value.length :=
    cell.bytes_length
  have rest : cell.bytes.drop (headerLength + cell.keyLength) = cell.value := by
    refine Eq.trans (List.take_of_length_le ?_).symm value
    rw [List.length_drop, size]
    omega
  simp only [decode, keyLength, valueLength, size]
  rw [if_neg (by omega), if_neg (by omega)]
  exact decodeKey_eq_ok_iff.mpr ⟨encodable.row, encodable.family, key, rest⟩

/-- A byte string is read as a cell exactly when it is the stored form of that cell, with lengths that
its fields hold. -/
theorem decode_eq_ok_iff {stored : Bytes} {cell : Cell} :
    decode stored = .ok cell ↔ cell.Encodable ∧ stored = cell.bytes := by
  constructor
  · exact encodable_of_decode
  · intro ⟨encodable, same⟩
    rw [same, decode_bytes encodable]

end Cell

end WideRow
