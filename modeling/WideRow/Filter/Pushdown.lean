import WideRow.Expr.Evaluate
import WideRow.Filter.Basic

/-!
# Pushing comparisons to the store

A comparison of a column with a literal, on either side, becomes a column filter if the literal can be
written as a stored value of the column without loss.  That is so if it is a number or text that is
still equal to itself after the cast to the column's type, and if the bytes of the type keep order,
which those of a decimal without a declared scale do not.
-/

namespace WideRow.Pushdown

/-- Whether the stored bytes of a type are ordered like its values. -/
def keepsOrder : DataType → Bool
  | .decimal _ none => false
  | _ => true

/-- Whether a literal is a value that takes part in comparisons. -/
def isComparable : Value → Bool
  | .null => false
  | .float x => !x.isNaN
  | _ => true

/-- The literal at the type of a column, if nothing is lost. -/
def exactValue? (value : Value) (type : DataType) : Option Value :=
  if isComparable value && keepsOrder type then
    match value.cast type with
    | .ok held => if held.compare? value = some .eq then some held else none
    | .error _ => none
  else none

/-- The filter that compares a column with a literal. -/
def columnFilter? (column : Column) (op : CompareOp) (value : Value) : Option ColumnFilter := do
  let held ← exactValue? value column.type
  match held.encode column.type with
  | .ok bytes =>
    some { family := column.family, qualifier := column.qualifier, op, value := bytes,
           rejectMissing := true }
  | .error _ => none

/-- The filter that does the same as an expression, if there is one. -/
def compile? : Expr → Option ColumnFilter
  | .comparison op (.column c) (.literal value _) => columnFilter? c op value
  | .comparison op (.literal value _) (.column c) => columnFilter? c op.mirror value
  | _ => none

/-- The filters for the store, and what is left of a condition to evaluate here. -/
def partition : Option Expr → List ColumnFilter × Option Expr
  | none => ([], none)
  | some condition =>
    match compile? condition with
    | some filter => ([filter], none)
    | none => ([], some condition)

end WideRow.Pushdown
