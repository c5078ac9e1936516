import WideRow.Expr.Text
import WideRow.Value.Cast

/-!
# Building expressions

The checked ways to make an expression: a literal typed by its value or cast to a type, arithmetic on
two or more operands of numeric type, and comparisons of operands that can be compared.  An operand
without a type is let through.
-/

namespace WideRow.Expr

/-- A literal typed by its value. -/
def ofValue (value : Value) : Expr := literal value value.naturalType?

/-- A literal cast to a declared type. -/
def ofTyped (value : Value) (type : DataType) : Fallible Expr := do
  let held ← value.cast type
  return literal held (some type)

/-- Refuses an operand of arithmetic that is not a number. -/
def checkNumeric (operand : Expr) : Fallible Unit :=
  match operand.type? with
  | none => .ok ()
  | some type =>
    if type.isNumeric then .ok () else .error (.type (.nonNumericOperand operand.text type))

/-- Refuses the first operand of arithmetic that is not a number. -/
def checkAllNumeric : List Expr → Fallible Unit
  | [] => .ok ()
  | operand :: rest => do
    checkNumeric operand
    checkAllNumeric rest

/-- An operator applied to two or more operands. -/
def ofArithmetic (op : ArithmeticOp) (operands : List Expr) : Fallible Expr :=
  if operands.length < 2 then .error (.planning (.tooFewOperands op operands.length))
  else do
    checkAllNumeric operands
    return arithmetic op operands

/-- A comparison of two operands. -/
def ofComparison (op : CompareOp) (left right : Expr) : Fallible Expr :=
  match left.type?, right.type? with
  | some l, some r =>
    if l.comparable r then .ok (comparison op left right)
    else .error (.type (.incomparableTypes l r))
  | _, _ => .ok (comparison op left right)

end WideRow.Expr
