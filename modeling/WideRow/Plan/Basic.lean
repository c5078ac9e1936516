import WideRow.Filter.Pushdown
import WideRow.KeyRange.Basic
import WideRow.Plan.Statement
import WideRow.Projection

/-!
# Plans

A plan scans some key ranges of a table, with what the store can filter pushed to it and the rest of
the condition left to evaluate.  `Plan.ofStatement` resolves the condition, which must be a boolean or
an untyped missing value, and divides it.
-/

namespace WideRow

/-- A plan for a query of one table. -/
structure Plan where
  table : TableRef
  projection : Projection
  statement : Statement
  config : ScanConfig
  /-- The ranges that the scan is split into. -/
  splits : List KeyRange
  order : RowOrder
  grouping : List Expr
  /-- What the store filters. -/
  filters : List ColumnFilter
  /-- What is left of the condition. -/
  residual : Option Expr

namespace Plan

/-- Resolves a condition. -/
def bindCondition : Option Surface → Fallible (Option Expr)
  | none => .ok none
  | some surface => do
    let condition ← surface.bind
    return some condition

/-- Refuses a condition that is neither a boolean nor without a type. -/
def checkCondition : Option Expr → Fallible Unit
  | none => .ok ()
  | some condition =>
    match condition.type? with
    | none => .ok ()
    | some .boolean => .ok ()
    | some other => .error (.planning (.conditionNotBoolean other))

/-- The plan of a statement: one scan of every key, in the order of keys. -/
def ofStatement (table : TableRef) (projection : Projection) (statement : Statement)
    (config : ScanConfig) : Fallible Plan := do
  let condition ← bindCondition statement.condition
  checkCondition condition
  let (filters, residual) := Pushdown.partition condition
  return { table, projection, statement, config, splits := [KeyRange.everything], order := .rowKey,
           grouping := [], filters, residual }

end Plan

end WideRow
