import WideRow.Number.Width

/-!
# Declared types

The type of a column or of an expression, its text, and the width it implies for an operand of
arithmetic.  A decimal type may leave its precision or its scale open.
-/

namespace WideRow

/-- A declared type. -/
inductive DataType where
  /-- Integers of 32 bits. -/
  | integer
  /-- Integers of 64 bits. -/
  | bigInt
  /-- Fixed-point numbers. -/
  | decimal (precision scale : Option Nat)
  /-- Floating-point numbers. -/
  | double
  /-- Text. -/
  | varchar
  | boolean
  deriving DecidableEq

namespace DataType

/-- The type as it is written in a schema.  A scale is shown only behind a precision. -/
def text : DataType → String
  | integer => "INTEGER"
  | bigInt => "BIGINT"
  | decimal (some precision) (some scale) => s!"DECIMAL({precision},{scale})"
  | decimal (some precision) none => s!"DECIMAL({precision})"
  | decimal none _ => "DECIMAL"
  | double => "DOUBLE"
  | varchar => "VARCHAR"
  | boolean => "BOOLEAN"

/-- Whether values of the type take part in arithmetic. -/
def isNumeric : DataType → Bool
  | integer => true
  | bigInt => true
  | decimal _ _ => true
  | double => true
  | varchar => false
  | boolean => false

/-- Whether two types are of one kind, precision and scale aside. -/
def sameKind : DataType → DataType → Bool
  | integer, integer => true
  | bigInt, bigInt => true
  | decimal _ _, decimal _ _ => true
  | double, double => true
  | varchar, varchar => true
  | boolean, boolean => true
  | _, _ => false

/-- Whether values of the two types can be compared. -/
def comparable (left right : DataType) : Bool :=
  (left.isNumeric && right.isNumeric) || sameKind left right

/-- The width of an operand of the type. -/
def width : DataType → Width
  | integer => Width.fixed 10 0
  | bigInt => Width.fixed 19 0
  | decimal precision scale => ⟨precision, scale⟩
  | double => Width.unconstrained
  | varchar => Width.unconstrained
  | boolean => Width.unconstrained

end DataType

end WideRow
