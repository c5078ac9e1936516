import WideRow.Fault.Query

/-!
# Casts

Bringing a value to a declared type.  Exact numbers go to exact types, cutting the fraction for
integers and rounding to the declared scale for decimals, with an overflow if the result does not fit;
every number goes to a double; text and booleans only to themselves.  A missing value stays missing.
-/

namespace WideRow.Value

/-- An exact integer brought to the range of an integer type. -/
def toInteger (bits : Nat) (n : Int) : Fallible Value :=
  match Signed.ofInt? bits n, Signed.ofInt? 64 n with
  | some _, some held => .ok (integer held)
  | _, _ => .error (.numeric .overflow)

/-- The whole part of a decimal. -/
def wholePart (unscaled : Unscaled) (scale : Nat) : Fallible Int := do
  let divisor ← Fallible.orOverflow (Decimal.tenTo? scale)
  return unscaled.val.tdiv divisor

/-- A decimal brought to a declared precision and scale; an open scale keeps its own, and no scale
exceeds the largest. -/
def toDecimal (unscaled : Unscaled) (scale : Nat) (precision target : Option Nat) :
    Fallible Value := do
  let target := min (target.getD scale) Decimal.maxDigits
  let rescaled ← Fallible.orOverflow (Decimal.rescale? unscaled scale target)
  Fallible.ofNumeric (Decimal.checkDigits rescaled precision)
  return decimal rescaled target

/-- The value at a declared type. -/
def cast : Value → DataType → Fallible Value
  | null, _ => .ok null
  | integer n, .integer => toInteger 32 n.val
  | integer n, .bigInt => .ok (integer n)
  | integer n, .decimal precision scale => toDecimal n.widen 0 precision scale
  | integer n, .double => .ok (float (Binary64.ofInt n.val))
  | decimal u s, .integer => do toInteger 32 (← wholePart u s)
  | decimal u s, .bigInt => do toInteger 64 (← wholePart u s)
  | decimal u s, .decimal precision scale => toDecimal u s precision scale
  | decimal u s, .double => .ok (float (Decimal.toDouble u s))
  | float x, .double => .ok (float x)
  | text s, .varchar => .ok (text s)
  | boolean b, .boolean => .ok (boolean b)
  | value, target => .error (.type (.cannotCast value target))

end WideRow.Value
