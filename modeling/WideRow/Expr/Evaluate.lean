import WideRow.Expr.Arithmetic
import WideRow.Expr.Text
import WideRow.Row.Search
import WideRow.Value.Codec
import WideRow.Value.Order

/-!
# Evaluation

The value of an expression on a row.  Operands are evaluated first, all of them and from the left; the
first that fails decides the result.  A column that the row lacks is a missing value.

As a predicate, a missing value counts as false.
-/

namespace WideRow

/-- The value of a column on a row. -/
def Column.read (column : Column) (row : Row) : Fallible Value := do
  match ← Fallible.ofRecord (row.columnValue column.family column.qualifier) with
  | some bytes => Value.decode bytes column.type
  | none => return .null

namespace Expr

/-- The value of a node on a row, from the values of its operands. -/
def apply (row : Row) (node : Expr) (values : List Value) : Fallible Value :=
  match node with
  | literal value _ => .ok value
  | column c => c.read row
  | arithmetic op operands =>
    let known := signatures operands
    let steps := arithmeticSteps op known
    Arithmetic.evaluate op (arithmeticType known (lastWidth steps)) steps values
  | comparison op _ _ =>
    match values with
    | left :: right :: _ => op.evaluate left right
    | _ => .error (.execution (.missingOperands node.text))

/-- The first failure among some results. -/
def firstFault? : List (Fallible Value) → Option QueryFault
  | [] => none
  | .ok _ :: rest => firstFault? rest
  | .error fault :: _ => some fault

/-- The values among some results. -/
def successes : List (Fallible Value) → List Value
  | [] => []
  | .ok value :: rest => value :: successes rest
  | .error _ :: rest => successes rest

/-- The visitor that evaluates an expression on a row.  A node with a failed operand is left without a
result, and the fallback repeats the first failure. -/
def evaluator (row : Row) : Visitor Id (Fallible Value) where
  enter _ := true
  leave node results :=
    match firstFault? results with
    | some _ => (none, results)
    | none => (some (apply row node (successes results)), [])
  fallback node results :=
    match firstFault? results with
    | some fault => .error fault
    | none => .error (.execution (.noResult node.text))

/-- The value of an expression on a row. -/
def evaluate (e : Expr) (row : Row) : Fallible Value := Id.run (e.accept (evaluator row))

/-- Whether a row satisfies an expression; a missing value counts as no. -/
def evaluatePredicate (e : Expr) (row : Row) : Fallible Bool := do
  match ← e.evaluate row with
  | .boolean b => return b
  | .null => return false
  | other => .error (.type (.nonBoolean e.text other))

end Expr

end WideRow
