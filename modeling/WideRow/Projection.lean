import WideRow.Expr.Columns
import WideRow.Expr.Evaluate

/-!
# Projection

The output columns of a query, each a name and an expression, and the rows they make.  A projected row
keeps its columns in the order in which they are first set; setting a column again changes its value
and not its place.
-/

namespace WideRow

/-- An output row: columns with their values, in order. -/
structure ProjectedRow where
  columns : List (String × Value)
  deriving DecidableEq

namespace ProjectedRow

/-- The row without columns. -/
def empty : ProjectedRow := ⟨[]⟩

/-- Sets a column in a list of columns. -/
def setIn (name : String) (value : Value) : List (String × Value) → List (String × Value)
  | [] => [(name, value)]
  | (other, held) :: rest =>
    if other = name then (other, value) :: rest else (other, held) :: setIn name value rest

/-- Sets a column. -/
def set (row : ProjectedRow) (name : String) (value : Value) : ProjectedRow :=
  ⟨setIn name value row.columns⟩

/-- The value of a column. -/
def get? (row : ProjectedRow) (name : String) : Option Value :=
  (row.columns.find? fun column => column.1 == name).map fun column => column.2

/-- The number of columns. -/
def size (row : ProjectedRow) : Nat := row.columns.length

end ProjectedRow

/-- An output column. -/
structure OutputColumn where
  name : String
  expression : Expr

/-- The output column that shows a column of the store under its own name. -/
def OutputColumn.ofColumn (column : Column) : OutputColumn := ⟨column.name, .column column⟩

/-- The output columns of a query. -/
structure Projection where
  columns : List OutputColumn

namespace Projection

/-- The number of output columns. -/
def columnCount (projection : Projection) : Nat := projection.columns.length

/-- Evaluates output columns on a row, in order, behind those already there. -/
def projectFrom (row : Row) (projected : ProjectedRow) : List OutputColumn → Fallible ProjectedRow
  | [] => .ok projected
  | column :: rest => do
    let value ← column.expression.evaluate row
    projectFrom row (projected.set column.name value) rest

/-- The output row of a row; the first column that fails decides. -/
def project (projection : Projection) (row : Row) : Fallible ProjectedRow :=
  projectFrom row ProjectedRow.empty projection.columns

/-- The columns of the store that the projection reads, each once, in the order of first use. -/
def referencedColumns (projection : Projection) : List Column :=
  projection.columns.foldl
    (fun seen column => column.expression.referencedColumns.foldl Column.addNew seen) []

end Projection

end WideRow
