import WideRow.Expr.Basic
import WideRow.Fault.Query

/-!
# Arithmetic on values

An arithmetic node folds its operator over its operands from the left, in one of three ways according
to its type: on 64-bit integers, on doubles, or on decimals.  A missing operand makes the result
missing.

Decimals are added at their common scale and multiplied at the sum of their scales, cut to the largest
one.  A quotient has the scale of the width of its step; without one it has four places more than its
operands.  The result is brought to the width of the node, if that has a scale.
-/

namespace WideRow.Arithmetic

/-- The fraction digits a quotient has beyond its operands where its scale is left open. -/
def extraScale : Nat := 4

/-! ### Integers -/

/-- The integer of an operand. -/
def integerOperand : Value → Fallible (Signed 64)
  | .integer n => .ok n
  | other => .error (.type (.unexpectedOperand "integer" other))

/-- The exact result of one step. -/
def exactStep (op : ArithmeticOp) (folded next : Int) : Int :=
  match op with
  | .add => folded + next
  | .subtract => folded - next
  | .multiply => folded * next
  | .divide => folded.tdiv next

/-- One step on integers; division cuts the fraction. -/
def integerStep (op : ArithmeticOp) (folded next : Signed 64) : Fallible (Signed 64) :=
  if op = .divide ∧ next.val = 0 then .error (.numeric .divisionByZero)
  else Fallible.orOverflow (Signed.ofInt? 64 (exactStep op folded.val next.val))

/-- Folds integers from the left. -/
def foldInteger (op : ArithmeticOp) (folded : Signed 64) : List Value → Fallible (Signed 64)
  | [] => .ok folded
  | operand :: rest => do
    let next ← integerOperand operand
    let folded ← integerStep op folded next
    foldInteger op folded rest

/-! ### Doubles -/

/-- The double of an operand. -/
def doubleOperand (value : Value) : Fallible Binary64 :=
  match value.toDouble? with
  | some x => .ok x
  | none => .error (.type (.unexpectedOperand "numeric" value))

/-- One step on doubles. -/
def doubleStep (op : ArithmeticOp) (folded next : Binary64) : Fallible Binary64 :=
  match op with
  | .add => .ok (Binary64.add folded next)
  | .subtract => .ok (Binary64.subtract folded next)
  | .multiply => .ok (Binary64.multiply folded next)
  | .divide =>
    if next.isZero then .error (.numeric .divisionByZero) else .ok (Binary64.divide folded next)

/-- Folds doubles from the left. -/
def foldDouble (op : ArithmeticOp) (folded : Binary64) : List Value → Fallible Binary64
  | [] => .ok folded
  | operand :: rest => do
    let next ← doubleOperand operand
    let folded ← doubleStep op folded next
    foldDouble op folded rest

/-! ### Decimals -/

/-- A decimal on the way through a fold. -/
structure Partial where
  unscaled : Unscaled
  scale : Nat
  deriving DecidableEq

/-- The decimal of an operand. -/
def decimalOperand (value : Value) : Fallible Partial :=
  match value.fixedPoint? with
  | some (unscaled, scale) => .ok ⟨unscaled, scale⟩
  | none => .error (.type (.unexpectedOperand "exact numeric" value))

/-- A sum or difference, at the larger of two scales. -/
def combineAligned (combine : Int → Int → Int) (folded next : Partial) : Fallible Partial := do
  let scale := max folded.scale next.scale
  let left ← Fallible.orOverflow (Decimal.rescale? folded.unscaled folded.scale scale)
  let right ← Fallible.orOverflow (Decimal.rescale? next.unscaled next.scale scale)
  let total ← Fallible.orOverflow (Signed.ofInt? 128 (combine left.val right.val))
  return ⟨total, scale⟩

/-- A product, at the sum of two scales as far as that is allowed.  The scales are added as natural
numbers: sums of 2^32 and more, which leave a word of 32 bits, are out of scope. -/
def multiplyExact (folded next : Partial) : Fallible Partial := do
  let product ← Fallible.orOverflow (Signed.ofInt? 128 (folded.unscaled.val * next.unscaled.val))
  let scale := folded.scale + next.scale
  if Decimal.maxDigits < scale then
    let reduced ← Fallible.orOverflow (Decimal.rescale? product scale Decimal.maxDigits)
    return ⟨reduced, Decimal.maxDigits⟩
  else return ⟨product, scale⟩

/-- The scale of a quotient.  Where it is left open, places are added to a natural number: sums of 2^32
and more, which leave a word of 32 bits, are out of scope. -/
def quotientScale (step : Width) (folded next : Partial) : Nat :=
  step.scale.getD (min (max folded.scale next.scale + extraScale) Decimal.maxDigits)

/-- A quotient, at the scale of the step. -/
def divideRounded (step : Width) (folded next : Partial) : Fallible Partial := do
  let scale := quotientScale step folded next
  let quotient ← Fallible.ofNumeric
    (Decimal.divide folded.unscaled folded.scale next.unscaled next.scale scale)
  return ⟨quotient, scale⟩

/-- One step on decimals. -/
def decimalStep (op : ArithmeticOp) (step : Width) (folded next : Partial) : Fallible Partial :=
  match op with
  | .add => combineAligned (· + ·) folded next
  | .subtract => combineAligned (· - ·) folded next
  | .multiply => multiplyExact folded next
  | .divide => divideRounded step folded next

/-- Folds decimals from the left, an operand for each step. -/
def foldDecimal (op : ArithmeticOp) (folded : Partial) :
    List Value → List Width → Fallible Partial
  | operand :: rest, step :: steps => do
    let next ← decimalOperand operand
    let folded ← decimalStep op step folded next
    foldDecimal op folded rest steps
  | _, _ => .ok folded

/-- A decimal brought to a width, if that has a scale. -/
def fitToWidth (width : Width) (folded : Partial) : Fallible Partial :=
  match width.scale with
  | none => .ok folded
  | some scale => do
    let rescaled ← Fallible.orOverflow (Decimal.rescale? folded.unscaled folded.scale scale)
    Fallible.ofNumeric (Decimal.checkDigits rescaled width.digits)
    return ⟨rescaled, scale⟩

/-! ### The three categories -/

/-- Arithmetic on integers. -/
def onIntegers (op : ArithmeticOp) : List Value → Fallible Value
  | [] => .ok .null
  | first :: rest => do
    let start ← integerOperand first
    return .integer (← foldInteger op start rest)

/-- Arithmetic on doubles. -/
def onDoubles (op : ArithmeticOp) : List Value → Fallible Value
  | [] => .ok .null
  | first :: rest => do
    let start ← doubleOperand first
    return .float (← foldDouble op start rest)

/-- Arithmetic on decimals, given the widths of the steps. -/
def onDecimals (op : ArithmeticOp) (steps : List Width) : List Value → Fallible Value
  | [] => .ok .null
  | first :: rest => do
    let start ← decimalOperand first
    let folded ← foldDecimal op start rest steps
    let result ← fitToWidth (Expr.lastWidth steps) folded
    return .decimal result.unscaled result.scale

/-- The value of an arithmetic node of the given type, from the values of its operands. -/
def evaluate (op : ArithmeticOp) (type : DataType) (steps : List Width) (operands : List Value) :
    Fallible Value :=
  if operands.any Value.isNull then .ok .null
  else
    match type with
    | .double => onDoubles op operands
    | .decimal _ _ => onDecimals op steps operands
    | _ => onIntegers op operands

end WideRow.Arithmetic
