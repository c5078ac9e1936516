import WideRow.Expr.Surface
import WideRow.Stream.Scan

/-!
# Statements

What a query says apart from its columns: the table, the condition, the order and grouping it asks for
and the limit.
-/

namespace WideRow

/-- A table and the name it goes by in the query. -/
structure TableRef where
  name : String
  localName : Option String
  deriving DecidableEq

/-- The name that columns of the table are qualified with. -/
def TableRef.effectiveName (table : TableRef) : String := table.localName.getD table.name

/-- One term of an order. -/
structure OrderTerm where
  expression : Expr
  ascending : Bool
  nullsLast : Bool

/-- The order that rows are promised in. -/
inductive RowOrder where
  | unordered
  /-- By row key. -/
  | rowKey
  | terms (terms : List OrderTerm)

/-- Whether no order is promised. -/
def RowOrder.isUnordered : RowOrder → Bool
  | unordered => true
  | _ => false

/-- A query. -/
structure Statement where
  condition : Option Surface
  distinct : Bool
  aggregate : Bool
  limit : Option Nat

end WideRow
