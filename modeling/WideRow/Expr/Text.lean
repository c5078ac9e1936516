import WideRow.Expr.Visitor

/-!
# Text of expressions

Literals are written as literals of the query language, columns by name, arithmetic in parentheses
with its operator between all operands, and comparisons without parentheses.
-/

namespace WideRow.Expr

/-- The text of a node whose operands have the given texts. -/
def renderNode : Expr → List String → Option String
  | literal value _, _ => some value.sqlLiteral
  | column c, _ => some c.name
  | arithmetic op _, parts => some ("(" ++ s!" {op.symbol} ".intercalate parts ++ ")")
  | comparison op _ _, left :: right :: _ => some s!"{left} {op.symbol} {right}"
  | comparison _ _ _, _ => none

/-- The visitor that writes an expression. -/
def formatter : Visitor Id String where
  enter _ := true
  leave node parts := (renderNode node parts, parts)
  fallback _ parts := "".intercalate parts

/-- The text of an expression. -/
def text (e : Expr) : String := Id.run (e.accept formatter)

end WideRow.Expr
