import WideRow.Fault.Query

/-!
# Order of values

A missing value comes first.  Exact numbers are compared exactly, at their common scale; if one of
them leaves 128 bits there, both are compared as doubles.  A number and a double are compared as
doubles, texts by their bytes.  Other pairs, and doubles that are no numbers, have no order.

A comparison with a missing value is itself missing.
-/

namespace WideRow

/-- The order of two decimals. -/
def Decimal.compare? (left : Unscaled) (leftScale : Nat) (right : Unscaled) (rightScale : Nat) :
    Option Ordering :=
  let scale := max leftScale rightScale
  match rescale? left leftScale scale, rescale? right rightScale scale with
  | some a, some b => some (compare a.val b.val)
  | _, _ => (toDouble left leftScale).compare? (toDouble right rightScale)

namespace Value

/-- The order of two values, if they have one. -/
def compare? : Value → Value → Option Ordering
  | null, null => some .eq
  | null, _ => some .lt
  | _, null => some .gt
  | integer a, integer b => some (compare a.val b.val)
  | integer a, decimal b s => Decimal.compare? a.widen 0 b s
  | integer a, float y => (Binary64.ofInt a.val).compare? y
  | decimal a s, integer b => Decimal.compare? a s b.widen 0
  | decimal a s, decimal b t => Decimal.compare? a s b t
  | decimal a s, float y => (Decimal.toDouble a s).compare? y
  | float x, integer b => x.compare? (Binary64.ofInt b.val)
  | float x, decimal b t => x.compare? (Decimal.toDouble b t)
  | float x, float y => x.compare? y
  | text a, text b => some (compare (Utf8.encode a) (Utf8.encode b))
  | boolean a, boolean b => some (compare a.toNat b.toNat)
  | _, _ => none

/-- The order of two values, a fault if they have none. -/
def order (left right : Value) : Fallible Ordering :=
  match compare? left right with
  | some o => .ok o
  | none => .error (.type (.incomparable left right))

end Value

/-- Compares two values with an operator; the result is missing if one of them is. -/
def CompareOp.evaluate (op : CompareOp) (left right : Value) : Fallible Value :=
  if left.isNull || right.isNull then .ok .null
  else do
    let o ← left.order right
    return .boolean (op.admits o)

end WideRow
