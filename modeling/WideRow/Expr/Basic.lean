import WideRow.Text.Utf8
import WideRow.Value.Text

/-!
# Expressions

A tree of literals, columns, arithmetic on two or more operands and comparisons.  Type and width of a
node are functions of the tree.  The type of arithmetic is the widest category among its operands, a
double over a decimal over an integer; its width is folded over the widths of the operands from the
left.  An untyped missing value has no type and fits anywhere.
-/

namespace WideRow

/-- A column of the store and the type of its values. -/
structure Column where
  family : Bytes
  qualifier : Bytes
  type : DataType
  deriving DecidableEq

/-- The name under which a column is shown. -/
def Column.name (column : Column) : String :=
  Utf8.lossy column.family ++ "." ++ Utf8.lossy column.qualifier

/-- A scalar expression. -/
inductive Expr where
  | literal (value : Value) (type : Option DataType)
  | column (column : Column)
  | arithmetic (op : ArithmeticOp) (operands : List Expr)
  | comparison (op : CompareOp) (left right : Expr)

namespace Expr

/-- The kind of a node. -/
def kind : Expr → String
  | literal _ _ => "literal"
  | column _ => "column"
  | arithmetic _ _ => "arithmetic"
  | comparison _ _ _ => "comparison"

/-- The operands of a node, from the left. -/
def children : Expr → List Expr
  | literal _ _ => []
  | column _ => []
  | arithmetic _ operands => operands
  | comparison _ left right => [left, right]

/-! ### Type and width -/

/-- What is known of an expression without a row: the type of its values, if it has one, and the width
that they are held to. -/
structure Signature where
  type : Option DataType
  width : Width
  deriving DecidableEq

/-- Whether the values are decimals. -/
def Signature.isDecimal (signature : Signature) : Bool :=
  match signature.type with
  | some (.decimal _ _) => true
  | _ => false

/-- The widths after each step of a fold over operands of the given widths. -/
def stepsOf (op : ArithmeticOp) : List Width → List Width
  | [] => []
  | first :: rest => Width.steps op first rest

/-- The width after the last step. -/
def lastWidth (steps : List Width) : Width := steps.getLast?.getD Width.unconstrained

/-- The widths after each step of arithmetic on the given operands. -/
def arithmeticSteps (op : ArithmeticOp) (operands : List Signature) : List Width :=
  stepsOf op (operands.map Signature.width)

/-- The type of arithmetic on the given operands whose result has the given width. -/
def arithmeticType (operands : List Signature) (width : Width) : DataType :=
  if operands.any fun operand => operand.type == some .double then .double
  else if operands.any Signature.isDecimal then .decimal width.digits width.scale
  else .bigInt

/-- What is known of arithmetic from what is known of its operands. -/
def arithmeticSignature (op : ArithmeticOp) (operands : List Signature) : Signature :=
  let width := lastWidth (arithmeticSteps op operands)
  ⟨some (arithmeticType operands width), width⟩

mutual

/-- What is known of an expression. -/
def signature : Expr → Signature
  | literal _ none => ⟨none, Width.unconstrained⟩
  | literal _ (some type) => ⟨some type, type.width⟩
  | column c => ⟨some c.type, c.type.width⟩
  | arithmetic op operands => arithmeticSignature op (signatures operands)
  | comparison _ _ _ => ⟨some .boolean, Width.unconstrained⟩

/-- What is known of some expressions. -/
def signatures : List Expr → List Signature
  | [] => []
  | e :: rest => signature e :: signatures rest

end

/-- The type of the expression; only an untyped missing value has none. -/
def type? (e : Expr) : Option DataType := e.signature.type

/-- The width that values of the expression are held to. -/
def width (e : Expr) : Width := e.signature.width

/-- The widths after each step of an arithmetic node. -/
def stepWidths (op : ArithmeticOp) (operands : List Expr) : List Width :=
  arithmeticSteps op (signatures operands)

theorem signatures_eq_map (operands : List Expr) : signatures operands = operands.map signature := by
  induction operands with
  | nil => simp only [signatures, List.map_nil]
  | cons e rest ih => simp only [signatures, List.map_cons, ih]

theorem stepWidths_eq_stepsOf (op : ArithmeticOp) (operands : List Expr) :
    stepWidths op operands = stepsOf op (operands.map width) := by
  rw [stepWidths, arithmeticSteps, signatures_eq_map, List.map_map]
  rfl

theorem width_arithmetic (op : ArithmeticOp) (operands : List Expr) :
    width (arithmetic op operands) = lastWidth (stepWidths op operands) := by
  simp only [width, signature, arithmeticSignature, stepWidths]

theorem type?_arithmetic (op : ArithmeticOp) (operands : List Expr) :
    type? (arithmetic op operands) =
      some (arithmeticType (operands.map signature) (width (arithmetic op operands))) := by
  simp only [type?, width, signature, arithmeticSignature, signatures_eq_map]

end Expr

end WideRow
