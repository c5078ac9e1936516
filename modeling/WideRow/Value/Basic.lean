import WideRow.Number.Binary64.Arithmetic
import WideRow.Value.DataType

/-!
# Values

What a column holds and an expression yields.  `fixedPoint?` reads a value as a decimal and `toDouble?` as
a double; `naturalType?` is the narrowest type that describes it.
-/

namespace WideRow

/-- A value. -/
inductive Value where
  | null
  | integer (n : Signed 64)
  | float (x : Binary64)
  /-- An unscaled integer at a scale. -/
  | decimal (unscaled : Unscaled) (scale : Nat)
  | text (s : String)
  | boolean (b : Bool)
  deriving DecidableEq

/-- A power of ten that a scale stands for, as a double.  The scale counts as a signed 32-bit number,
so from the middle of that range on it is negative. -/
def Decimal.scaleFactor (scale : Nat) : Binary64 :=
  Binary64.tenTo (Signed.wrap 32 scale).val

/-- The double near a decimal: both parts rounded, then divided. -/
def Decimal.toDouble (unscaled : Unscaled) (scale : Nat) : Binary64 :=
  Binary64.divide (Binary64.ofInt unscaled.val) (scaleFactor scale)

/-- A 64-bit integer at 128 bits. -/
def Signed.widen (n : Signed 64) : Unscaled where
  val := n.val
  low := by
    have := n.low
    simp only [half_sixtyFour, half_oneTwentyEight] at *
    omega
  high := by
    have := n.high
    simp only [half_sixtyFour, half_oneTwentyEight] at *
    omega

namespace Value

/-- Whether the value is missing. -/
def isNull : Value → Bool
  | null => true
  | _ => false

/-- The truth value of a boolean. -/
def toBool? : Value → Option Bool
  | boolean b => some b
  | _ => none

/-- Unscaled value and scale of an exact number. -/
def fixedPoint? : Value → Option (Unscaled × Nat)
  | integer n => some (n.widen, 0)
  | decimal unscaled scale => some (unscaled, scale)
  | _ => none

/-- The double near a number. -/
def toDouble? : Value → Option Binary64
  | integer n => some (Binary64.ofInt n.val)
  | float x => some x
  | decimal unscaled scale => some (Decimal.toDouble unscaled scale)
  | _ => none

/-- The narrowest type that describes the value; a missing value has none. -/
def naturalType? : Value → Option DataType
  | null => none
  | integer n => if (Signed.ofInt? 32 n.val).isSome then some .integer else some .bigInt
  | float _ => some .double
  | decimal unscaled scale =>
    some (.decimal (some (max (max (Decimal.digits unscaled) scale) 1)) (some scale))
  | text _ => some .varchar
  | boolean _ => some .boolean

/-- Equality as values: doubles are compared as numbers, and decimals field by field. -/
def equals : Value → Value → Bool
  | null, null => true
  | integer a, integer b => a == b
  | float x, float y => x.equals y
  | decimal a s, decimal b t => a == b && s == t
  | text a, text b => a == b
  | boolean a, boolean b => a == b
  | _, _ => false

end Value

end WideRow
