import WideRow.Expr.Text

/-!
# Tracing a walk

A visitor that writes down every stage of a walk.  It can be told to skip the operands of some kinds
of node, and to take the results of the operands of others: a node of a taken kind is left with a
hundred more than the sum of its results, another one loses the last of them and falls back to one
more than the sum of the rest.

`nodeCount` is the walk that only falls back, so it counts the nodes.
-/

namespace WideRow.Expr

/-- Numbers in brackets. -/
def bracketed (results : List Int) : String :=
  "[" ++ ", ".intercalate (results.map toString) ++ "]"

/-- Adds a line to a trace. -/
def note (line : String) : StateM (List String) Unit := modify fun lines => lines ++ [line]

/-- The visitor that traces a walk. -/
def tracer (skipped taken : List String) : Visitor (StateM (List String)) Int where
  enter node := do
    note s!"enter {node.text}"
    return !skipped.contains node.kind
  leave node results := do
    note s!"leave {node.kind} {bracketed results}"
    if taken.contains node.kind then return (some (100 + (results.foldl (· + ·) 0)), [])
    else return (none, results.dropLast)
  fallback node results := do
    note s!"default {node.kind} {bracketed results}"
    return 1 + (results.foldl (· + ·) 0)

/-- The result of a traced walk and its trace. -/
def trace (skipped taken : List String) (e : Expr) : Int × List String :=
  e.accept (tracer skipped taken) []

/-- The visitor that counts nodes. -/
def counter : Visitor Id Nat where
  enter _ := true
  leave _ results := (none, results)
  fallback _ results := 1 + (results.foldl (· + ·) 0)

/-- The number of nodes of an expression. -/
def nodeCount (e : Expr) : Nat := Id.run (e.accept counter)

end WideRow.Expr
