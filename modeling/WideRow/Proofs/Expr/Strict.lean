import WideRow.Proofs.Expr.Evaluate

/-!
# Strict evaluation

What evaluation means, as a recursion that knows nothing of visitors.  The operands of a node are
evaluated in order, and the first that fails decides.  Of values one of which is missing every node
makes a missing one, whatever its operator would do with the others; from other values it makes what
its operator does.

* `strict` : the recursion; `postOrder` : the nodes in the order in which it comes to their operators.
* `evaluate_eq_strict` : the walk of the evaluating visitor gives the same value or fault, and the fault
  is that of the first node in this order that fails by itself.
-/

namespace WideRow

/-- The fault of a result, if it is one. -/
def faultOf {α : Type} : Fallible α → Option QueryFault
  | .ok _ => none
  | .error fault => some fault

namespace Expr

/-! ### The recursion -/

/-- What the operator of a node makes of values in order, none of which is missing. -/
def operate (row : Row) (node : Expr) (values : List Value) : Fallible Value :=
  match node, values with
  | literal value _, _ => .ok value
  | column c, _ => c.read row
  | arithmetic op operands, values =>
    match (arithmetic op operands).type? with
    | some .double => Arithmetic.onDoubles op values
    | some (.decimal _ _) => Arithmetic.onDecimals op (stepWidths op operands) values
    | _ => Arithmetic.onIntegers op values
  | comparison op _ _, left :: right :: _ => do
    let o ← left.order right
    return .boolean (op.admits o)
  | comparison op left right, _ =>
    .error (.execution (.missingOperands (comparison op left right).text))

/-- What a node makes of the values of its operands: a missing value if one of them is missing. -/
def combine (row : Row) (node : Expr) (values : List Value) : Fallible Value :=
  if values.any Value.isNull then .ok .null else operate row node values

mutual

/-- The value of an expression: those of its operands, and then its own. -/
def strict (row : Row) : Expr → Fallible Value
  | literal value type => combine row (literal value type) []
  | column c => combine row (column c) []
  | arithmetic op operands => do
    let values ← strictAll row operands
    combine row (arithmetic op operands) values
  | comparison op left right => do
    let first ← strict row left
    let second ← strict row right
    combine row (comparison op left right) [first, second]

/-- The values of some expressions from the left, up to the first that fails. -/
def strictAll (row : Row) : List Expr → Fallible (List Value)
  | [] => .ok []
  | e :: rest => do
    let value ← strict row e
    let others ← strictAll row rest
    return value :: others

end

mutual

/-- The nodes of an expression, each after its operands and these from the left. -/
def postOrder : Expr → List Expr
  | literal value type => [literal value type]
  | column c => [column c]
  | arithmetic op operands => postOrderAll operands ++ [arithmetic op operands]
  | comparison op left right =>
    postOrder left ++ postOrder right ++ [comparison op left right]

/-- The nodes of some expressions, from the left. -/
def postOrderAll : List Expr → List Expr
  | [] => []
  | e :: rest => postOrder e ++ postOrderAll rest

end

/-- The fault of a node that fails by itself: its operands have values, and it makes none of them. -/
def ownFault? (row : Row) (node : Expr) : Option QueryFault :=
  match strictAll row node.children with
  | .ok values => faultOf (combine row node values)
  | .error _ => none

/-- One equation for every kind of node. -/
theorem strict_eq (row : Row) (e : Expr) :
    strict row e = strictAll row e.children >>= combine row e := by
  cases e with
  | literal value type => rfl
  | column c => rfl
  | arithmetic op operands => rw [strict]; rfl
  | comparison op left right =>
    rw [strict, children, strictAll, strictAll, strictAll]
    cases strict row left with
    | error fault => rfl
    | ok first =>
      cases strict row right with
      | error fault => rfl
      | ok second => rfl

/-! ### The visitor -/

theorem combine_arithmetic (op : ArithmeticOp) (operands : List Expr) {type : DataType}
    (typed : (arithmetic op operands).type? = some type) (row : Row) (values : List Value) :
    Arithmetic.evaluate op type (stepWidths op operands) values =
      combine row (arithmetic op operands) values := by
  unfold Arithmetic.evaluate combine
  by_cases missing : values.any Value.isNull = true
  · rw [if_pos missing, if_pos missing]
  · rw [if_neg missing, if_neg missing]
    unfold operate
    simp only [typed]
    cases type <;> rfl

theorem combine_comparison (op : CompareOp) (left right : Expr) (row : Row) (first second : Value) :
    op.evaluate first second = combine row (comparison op left right) [first, second] := by
  have missing : [first, second].any Value.isNull = (first.isNull || second.isNull) := by
    rw [List.any_cons, List.any_cons, List.any_nil, Bool.or_false]
  unfold CompareOp.evaluate combine
  rw [missing]
  rfl

theorem evaluateAll_eq_strictAll {row : Row} {operands : List Expr}
    (each : ∀ operand ∈ operands, operand.evaluate row = strict row operand) :
    evaluateAll row operands = strictAll row operands := by
  induction operands with
  | nil => rw [evaluateAll, strictAll]
  | cons e rest ih =>
    have others := ih fun operand member => each operand (List.mem_cons_of_mem _ member)
    rw [evaluateAll, strictAll, each e List.mem_cons_self, others]

/-- The walk of the visitor is the recursion. -/
theorem evaluate_strict (e : Expr) (row : Row) : e.evaluate row = strict row e := by
  induction e with
  | literal value type =>
    rw [evaluate_literal, strict]
    rfl
  | column c =>
    rw [evaluate_column, strict]
    rfl
  | arithmetic op operands ih =>
    have typed := type?_arithmetic op operands
    have node := funext (combine_arithmetic op operands typed row)
    rw [evaluate_arithmetic typed, evaluateAll_eq_strictAll ih, node, strict]
  | comparison op left right first second =>
    rw [evaluate_comparison, first, second, strict]
    cases strict row left with
    | error fault => rfl
    | ok a =>
      cases strict row right with
      | error fault => rfl
      | ok b => exact combine_comparison op left right row a b

/-! ### The first fault -/

theorem ownFault?_of_ok {row : Row} {node : Expr} {values : List Value}
    (operands : strictAll row node.children = .ok values) :
    ownFault? row node = faultOf (strict row node) := by
  rw [ownFault?, strict_eq, operands]
  rfl

theorem faultOf_strictAll_cons (row : Row) (e : Expr) (rest : List Expr) :
    faultOf (strictAll row (e :: rest)) =
      (faultOf (strict row e)).or (faultOf (strictAll row rest)) := by
  rw [strictAll]
  cases strict row e with
  | error fault => rfl
  | ok value =>
    cases strictAll row rest with
    | error fault => rfl
    | ok others => rfl

/-- The nodes below come first; the node itself fails only if none of them does. -/
theorem findSome?_own {row : Row} {node : Expr} {below : List Expr}
    (operands : faultOf (strictAll row node.children) = below.findSome? (ownFault? row)) :
    (below ++ [node]).findSome? (ownFault? row) = faultOf (strict row node) := by
  rw [List.findSome?_append, ← operands]
  cases values : strictAll row node.children with
  | error fault =>
    rw [strict_eq, values]
    rfl
  | ok values' =>
    rw [List.findSome?_singleton, ownFault?_of_ok values]
    rfl

theorem findSome?_postOrderAll {row : Row} {operands : List Expr}
    (each : ∀ operand ∈ operands,
      operand.postOrder.findSome? (ownFault? row) = faultOf (strict row operand)) :
    faultOf (strictAll row operands) = (postOrderAll operands).findSome? (ownFault? row) := by
  induction operands with
  | nil =>
    rw [strictAll, postOrderAll]
    rfl
  | cons e rest ih =>
    have others := ih fun operand member => each operand (List.mem_cons_of_mem _ member)
    rw [faultOf_strictAll_cons, postOrderAll, List.findSome?_append, each e List.mem_cons_self,
      others]

/-- The fault of an expression is that of the first of its nodes that fails by itself. -/
theorem findSome?_postOrder (e : Expr) (row : Row) :
    e.postOrder.findSome? (ownFault? row) = faultOf (strict row e) := by
  induction e with
  | literal value type =>
    have operands : faultOf (strictAll row (literal value type).children) =
        ([] : List Expr).findSome? (ownFault? row) := rfl
    exact findSome?_own operands
  | column c =>
    have operands : faultOf (strictAll row (column c).children) =
        ([] : List Expr).findSome? (ownFault? row) := rfl
    exact findSome?_own operands
  | arithmetic op operands ih =>
    rw [postOrder]
    exact findSome?_own (findSome?_postOrderAll ih)
  | comparison op left right first second =>
    rw [postOrder]
    have both : ∀ operand ∈ [left, right],
        operand.postOrder.findSome? (ownFault? row) = faultOf (strict row operand) :=
      List.forall_mem_cons.mpr ⟨first, List.forall_mem_singleton.mpr second⟩
    refine findSome?_own ?_
    have below := findSome?_postOrderAll both
    rw [postOrderAll, postOrderAll, postOrderAll, List.append_nil] at below
    exact below

/-- **Evaluation by a visitor is strict evaluation.**  The evaluating visitor gives the value that the
recursion gives, or the same fault.  A fault is that of the first node that fails by itself, where nodes
come after their operands and operands from the left; if no node does, there is a value. -/
theorem evaluate_eq_strict (e : Expr) (row : Row) :
    e.evaluate row = strict row e ∧
      faultOf (e.evaluate row) = e.postOrder.findSome? (ownFault? row) := by
  have walk := evaluate_strict e row
  refine ⟨walk, ?_⟩
  rw [walk, findSome?_postOrder]

-- a missing operand hides an overflow of the node, but a node below that overflows is not hidden
example (row : Row) :
    let most := literal (.integer (Signed.greatest 64)) none
    let sum := arithmetic .add [most, most]
    sum.evaluate row = .error (.numeric .overflow) ∧
      (arithmetic .add [most, most, literal .null none]).evaluate row = .ok .null ∧
      (arithmetic .add [literal .null none, sum]).evaluate row = .error (.numeric .overflow) :=
  ⟨rfl, rfl, rfl⟩

end Expr

end WideRow
