import WideRow.Expr.Visitor

/-!
# Columns of an expression

The columns that an expression reads, each once, in the order in which they are first met from the
left.
-/

namespace WideRow

/-- A column put behind those already seen, unless it is one of them. -/
def Column.addNew (seen : List Column) (column : Column) : List Column :=
  if column ∈ seen then seen else seen ++ [column]

namespace Expr

/-- The visitor that collects columns. -/
def collector : Visitor (StateM (List Column)) Unit where
  enter _ := return true
  leave node _ := do
    match node with
    | .column c => modify fun seen => Column.addNew seen c
    | _ => pure ()
    return (none, [])
  fallback _ _ := return ()

/-- The columns that an expression reads, after those already seen. -/
def collectColumns (seen : List Column) (e : Expr) : List Column := (e.accept collector seen).2

/-- The columns that an expression reads. -/
def referencedColumns (e : Expr) : List Column := e.collectColumns []

end Expr

end WideRow
