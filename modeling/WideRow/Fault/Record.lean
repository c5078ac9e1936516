import WideRow.Text.Utf8

/-!
# Malformed records

What is wrong with bytes that claim to be a cell, a record or a stored value, and with cells that
cannot be written or do not belong together.  `RecordFault.message` is the description.
-/

namespace WideRow

/-- What is wrong with the bytes of a record, or with cells that should make one. -/
inductive RecordFault where
  /-- A cell to be written has a row too long for its length field. -/
  | rowTooLong (size : Nat)
  | familyTooLong (size : Nat)
  | cellTooLong
  /-- A cell does not lie in its buffer. -/
  | cellOutside (offset length size : Nat)
  | noCellHeader (length : Nat)
  | lengthsDisagree (keyLength valueLength length : Nat)
  | cellKeyTooShort (keyLength : Nat)
  | negativeRowLength (length : Int)
  | rowOverrun (length : Nat)
  | familyOverrun (length : Nat)
  /-- A record does not lie in its buffer. -/
  | recordOutside (offset length size : Nat)
  | noKeyLength (limit offset : Nat)
  | negativeKeyLength (length : Int)
  | keyOverrun (length offset limit : Nat)
  /-- A cell of another row among the cells of a row. -/
  | strayCell (stray row : Bytes)
  | truncatedCellLength (position : Nat)
  | cellOverrun (offset length : Nat)
  /-- A stored value has the wrong number of bytes for its type. -/
  | valueLength (type : String) (expected found : Nat)
  | valueNotText (fault : Utf8.Fault)
  | valueNotBoolean (byte : Nat)
  deriving DecidableEq

/-- The description of the fault. -/
def RecordFault.message : RecordFault → String
  | rowTooLong size => s!"row of {size} bytes exceeds the row length prefix"
  | familyTooLong size => s!"family of {size} bytes exceeds the family length prefix"
  | cellTooLong => "cell exceeds the 4-byte length prefix"
  | cellOutside offset length size => s!"cell span {offset}+{length} exceeds buffer of {size} bytes"
  | noCellHeader length => s!"cell of {length} bytes has no room for its header"
  | lengthsDisagree key value length =>
    s!"cell declares key {key} and value {value} bytes but spans {length}"
  | cellKeyTooShort keyLength => s!"cell key of {keyLength} bytes is too short"
  | negativeRowLength length => s!"negative row length {length}"
  | rowOverrun length => s!"row length {length} overruns the cell key"
  | familyOverrun length => s!"family length {length} overruns the cell key"
  | recordOutside offset length size =>
    s!"record span {offset}+{length} exceeds buffer of {size} bytes"
  | noKeyLength limit offset =>
    s!"record ending at byte {limit} is too short to hold a key length prefix ending at {offset}"
  | negativeKeyLength length => s!"negative key length {length}"
  | keyOverrun length offset limit =>
    s!"key of {length} bytes at offset {offset} exceeds the record end at {limit}"
  | strayCell stray row => s!"cell for row {stray.hex} mixed into row {row.hex}"
  | truncatedCellLength position => s!"truncated cell length prefix at byte {position}"
  | cellOverrun offset length =>
    s!"cell at byte {offset} of {length} bytes runs past the record end"
  | valueLength type expected found => s!"{type} value must be {expected} bytes, found {found}"
  | valueNotText fault => s!"VARCHAR value is not UTF-8: {fault.message}"
  | valueNotBoolean byte => s!"invalid BOOLEAN byte {byte}"

end WideRow
