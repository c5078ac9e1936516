import WideRow.Bytes.Endian
import WideRow.Fault.Record
import WideRow.Number.Signed

/-!
# Cells

A cell is one version of one column of one row.  Its stored form is a header with the lengths of key
and value, then the key, then the value.  The key holds the row behind its two-byte length, the family
behind its one-byte length, the qualifier, the timestamp and the type.

`Cell.encode` writes that form and refuses lengths that their fields cannot hold.  `Cell.decode` reads
a byte string that is one whole cell and says what is wrong with any other.
-/

namespace WideRow

/-- The kinds of cell that have a name. -/
inductive CellType where
  | minimum
  | put
  | delete
  | deleteColumn
  | deleteFamily
  | maximum
  deriving DecidableEq

namespace CellType

/-- Every named kind of cell. -/
def all : List CellType := [minimum, put, delete, deleteColumn, deleteFamily, maximum]

/-- The code of a kind in the stored form. -/
def code : CellType → UInt8
  | minimum => 0
  | put => 4
  | delete => 8
  | deleteColumn => 12
  | deleteFamily => 14
  | maximum => 255

/-- The kind with a code, if one has it. -/
def ofCode? (code : UInt8) : Option CellType := all.find? fun kind => kind.code == code

/-- The name of a kind. -/
def name : CellType → String
  | minimum => "Minimum"
  | put => "Put"
  | delete => "Delete"
  | deleteColumn => "DeleteColumn"
  | deleteFamily => "DeleteFamily"
  | maximum => "Maximum"

/-- The kind with a name, if there is one. -/
def ofName? (name : String) : Option CellType := all.find? fun kind => kind.name == name

theorem ofCode?_code (kind : CellType) : ofCode? kind.code = some kind := by
  cases kind <;> rfl

end CellType

/-- One version of one column of one row. -/
structure Cell where
  row : Bytes
  family : Bytes
  qualifier : Bytes
  timestamp : Timestamp
  typeCode : UInt8
  value : Bytes
  deriving DecidableEq

namespace Cell

/-- The bytes of a header. -/
def headerLength : Nat := 8

/-- The bytes of a key besides row, family and qualifier. -/
def keyOverhead : Nat := 12

/-- The length of the key. -/
def keyLength (cell : Cell) : Nat :=
  keyOverhead + cell.row.length + cell.family.length + cell.qualifier.length

/-- The length of the stored form. -/
def encodedLength (cell : Cell) : Nat := headerLength + cell.keyLength + cell.value.length

/-- Whether the cell is a version of the column. -/
def inColumn (cell : Cell) (family qualifier : Bytes) : Bool :=
  cell.family == family && cell.qualifier == qualifier

/-! ### Writing -/

/-- The key of the stored form. -/
def keyBytes (cell : Cell) : Bytes :=
  Bytes.bigEndian 2 cell.row.length ++ cell.row ++
    UInt8.ofNat cell.family.length :: (cell.family ++ cell.qualifier ++
      Bytes.bigEndian 8 cell.timestamp.pattern ++ [cell.typeCode])

/-- The stored form. -/
def bytes (cell : Cell) : Bytes :=
  Bytes.bigEndian 4 cell.keyLength ++ Bytes.bigEndian 4 cell.value.length ++
    cell.keyBytes ++ cell.value

/-- Refuses a cell whose lengths do not fit their fields. -/
def checkLengths (cell : Cell) : Except RecordFault Unit :=
  if 32767 < cell.row.length then .error (.rowTooLong cell.row.length)
  else if 255 < cell.family.length then .error (.familyTooLong cell.family.length)
  else if 4294967295 < cell.keyLength ∨ 4294967295 < cell.value.length then .error .cellTooLong
  else .ok ()

/-- The stored form of a cell whose lengths fit their fields. -/
def encode (cell : Cell) : Except RecordFault Bytes := do
  cell.checkLengths
  return cell.bytes

/-- Puts bytes behind what has been written before. -/
def emit (bytes : Bytes) : EStateM RecordFault Bytes Unit := modify fun out => out ++ bytes

/-- Writes the stored form behind what has been written before, part by part, and counts its bytes. -/
def write (cell : Cell) : EStateM RecordFault Bytes Nat := do
  liftExcept cell.checkLengths
  let start := (← get).length
  emit (Bytes.bigEndian 4 cell.keyLength ++ Bytes.bigEndian 4 cell.value.length ++
    Bytes.bigEndian 2 cell.row.length)
  emit cell.row
  emit [UInt8.ofNat cell.family.length]
  emit cell.family
  emit cell.qualifier
  emit (Bytes.bigEndian 8 cell.timestamp.pattern)
  emit [cell.typeCode]
  emit cell.value
  return (← get).length - start

/-- What is written once the stored form is behind what has been written before. -/
def appendTo (out : Bytes) (cell : Cell) : Except RecordFault Bytes :=
  match cell.write.run out with
  | .ok _ written => .ok written
  | .error fault _ => .error fault

theorem keyBytes_length (cell : Cell) : cell.keyBytes.length = cell.keyLength := by
  simp only [keyBytes, keyLength, keyOverhead, List.length_append, List.length_cons,
    List.length_nil, Bytes.bigEndian_length]
  omega

theorem bytes_length (cell : Cell) : cell.bytes.length = cell.encodedLength := by
  simp only [bytes, encodedLength, headerLength, List.length_append, Bytes.bigEndian_length,
    keyBytes_length]

/-! ### Reading -/

/-- Reads the parts of a key of the given row and family length. -/
def ofKey (key value : Bytes) (rowLength familyLength : Nat) : Cell where
  row := Bytes.slice key 2 rowLength
  family := Bytes.slice key (3 + rowLength) familyLength
  qualifier := Bytes.slice key (3 + rowLength + familyLength)
    (key.length - (keyOverhead + rowLength + familyLength))
  timestamp := Signed.wrap 64 (Bytes.ofBigEndian (Bytes.slice key (key.length - 9) 8))
  typeCode := key.getD (key.length - 1) 0
  value := value

/-- Reads a key, checking each length against what is left of it. -/
def decodeKey (key value : Bytes) : Except RecordFault Cell :=
  if key.length < keyOverhead then .error (.cellKeyTooShort key.length)
  else
    let signedLength := (Signed.wrap 16 (Bytes.ofBigEndian (key.take 2))).val
    if signedLength < 0 then .error (.negativeRowLength signedLength)
    else
      let rowLength := signedLength.toNat
      if key.length < keyOverhead + rowLength then .error (.rowOverrun rowLength)
      else
        let familyLength := (key.getD (2 + rowLength) 0).toNat
        if key.length < keyOverhead + rowLength + familyLength then
          .error (.familyOverrun familyLength)
        else .ok (ofKey key value rowLength familyLength)

/-- Reads a byte string that is one whole cell. -/
def decode (stored : Bytes) : Except RecordFault Cell :=
  if stored.length < headerLength then .error (.noCellHeader stored.length)
  else
    let keyLength := Bytes.ofBigEndian (Bytes.slice stored 0 4)
    let valueLength := Bytes.ofBigEndian (Bytes.slice stored 4 4)
    if headerLength + keyLength + valueLength ≠ stored.length then
      .error (.lengthsDisagree keyLength valueLength stored.length)
    else
      decodeKey (Bytes.slice stored headerLength keyLength) (stored.drop (headerLength + keyLength))

end Cell

end WideRow
