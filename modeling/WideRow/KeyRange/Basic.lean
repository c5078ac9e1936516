import WideRow.Fault.Query
import WideRow.Row.Basic

/-!
# Key ranges

A range of keys between two bounds, each of which belongs to it or not.  An empty bound leaves its side
open.
-/

namespace WideRow

/-- A range of keys. -/
structure KeyRange where
  lower : Bytes
  lowerInclusive : Bool
  upper : Bytes
  upperInclusive : Bool
  deriving DecidableEq

namespace KeyRange

/-- The range of every key. -/
def everything : KeyRange := ⟨[], true, [], true⟩

/-- The range of one key, which must not be empty. -/
def point (key : Bytes) : Fallible KeyRange :=
  if key.isEmpty then .error (.planning .emptyPoint) else .ok ⟨key, true, key, true⟩

/-- The keys from `lower` on and before `upper`. -/
def halfOpen (lower upper : Bytes) : KeyRange := ⟨lower, true, upper, false⟩

/-- Whether the range is open below. -/
def isLowerUnbound (range : KeyRange) : Bool := range.lower.isEmpty

/-- Whether the range is open above. -/
def isUpperUnbound (range : KeyRange) : Bool := range.upper.isEmpty

/-- Whether the range is open on both sides. -/
def isEverything (range : KeyRange) : Bool := range.isLowerUnbound && range.isUpperUnbound

/-- Whether a key does not lie below the range. -/
def admitsBelow (range : KeyRange) (key : Bytes) : Bool :=
  range.isLowerUnbound ||
    match compare key range.lower with
    | .lt => false
    | .eq => range.lowerInclusive
    | .gt => true

/-- Whether a key does not lie above the range. -/
def admitsAbove (range : KeyRange) (key : Bytes) : Bool :=
  range.isUpperUnbound ||
    match compare key range.upper with
    | .lt => true
    | .eq => range.upperInclusive
    | .gt => false

/-- Whether a key lies in the range. -/
def contains (range : KeyRange) (key : Bytes) : Bool :=
  range.admitsBelow key && range.admitsAbove key

/-- Whether a stretch of a buffer lies in the range.  A range with a bound has no answer for a stretch
that does not lie in its buffer. -/
def containsSlice? (range : KeyRange) (buffer : Bytes) (offset length : Nat) : Option Bool :=
  if range.isEverything then some true
  else (Bytes.slice? buffer offset length).map range.contains

/-- Whether the key of a row lies in the range. -/
def containsRow (range : KeyRange) (row : Row) : Bool := range.contains row.key.bytes

/-- A bound as text. -/
def boundText (bound : Bytes) : String := if bound.isEmpty then "*" else bound.hex

/-- The range as text: square brackets for bounds that belong to it, round ones for others. -/
def text (range : KeyRange) : String :=
  let opening := if range.lowerInclusive then "[" else "("
  let closing := if range.upperInclusive then "]" else ")"
  opening ++ boundText range.lower ++ " - " ++ boundText range.upper ++ closing

/-- The ranges between successive split points, open below the first and above the last. -/
def between (lower : Bytes) : List Bytes → List KeyRange
  | [] => [halfOpen lower []]
  | point :: rest => halfOpen lower point :: between point rest

/-- The ranges that split points cut the keys into. -/
def splitAt (points : List Bytes) : List KeyRange := between [] points

end KeyRange

end WideRow
