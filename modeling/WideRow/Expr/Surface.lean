import WideRow.Expr.Build

/-!
# Surface expressions

What a query is written as, before types are resolved.  `Surface.bind` makes an expression of it, from
the left and from the inside out, so the first fault wins.  `Surface.swap` exchanges the operands of a
comparison and mirrors its operator.
-/

namespace WideRow

/-- An expression whose types are not resolved. -/
inductive Surface where
  | literal (value : Value)
  | column (column : Column)
  | arithmetic (op : ArithmeticOp) (operands : List Surface)
  | comparison (op : CompareOp) (left right : Surface)

namespace Surface

mutual

/-- Resolves an expression. -/
def bind : Surface → Fallible Expr
  | literal value => .ok (Expr.ofValue value)
  | column c => .ok (Expr.column c)
  | arithmetic op operands => do
    let bound ← bindAll operands
    Expr.ofArithmetic op bound
  | comparison op left right => do
    let boundLeft ← bind left
    let boundRight ← bind right
    Expr.ofComparison op boundLeft boundRight

/-- Resolves some expressions from the left. -/
def bindAll : List Surface → Fallible (List Expr)
  | [] => .ok []
  | s :: rest => do
    let first ← bind s
    let others ← bindAll rest
    return first :: others

end

/-- A comparison with its operands exchanged, which means the same. -/
def swap : Surface → Surface
  | comparison op left right => comparison op.mirror right left
  | other => other

mutual

/-- Equality, with literals compared as values: one that is not a number differs from itself. -/
def equals : Surface → Surface → Bool
  | literal a, literal b => a.equals b
  | column a, column b => a == b
  | arithmetic op operands, arithmetic op' operands' => op == op' && equalsAll operands operands'
  | comparison op left right, comparison op' left' right' =>
    op == op' && equals left left' && equals right right'
  | _, _ => false

/-- Equality of lists, item by item. -/
def equalsAll : List Surface → List Surface → Bool
  | [], [] => true
  | s :: rest, s' :: rest' => equals s s' && equalsAll rest rest'
  | _, _ => false

end

theorem swap_swap (s : Surface) : s.swap.swap = s := by
  cases s with
  | comparison op left right => simp only [swap, CompareOp.mirror_mirror]
  | literal value => rfl
  | column c => rfl
  | arithmetic op operands => rfl

end Surface

end WideRow
