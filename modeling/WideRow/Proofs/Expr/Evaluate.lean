import Mathlib.Data.List.Forall2
import WideRow.Expr.Evaluate

/-!
# Evaluation, node by node

Evaluation is a walk of a visitor.  Here it becomes a recursion: what a node gives is what its operands
give, taken from the left up to the first fault, and then the operator.

* `Expr.induction`: induction over an expression, with one hypothesis for every operand.
* `Expr.evaluate_arithmetic`, `Expr.evaluate_comparison`: one equation for each kind of node.
* `Expr.settles_arithmetic`: the result of arithmetic depends on the values of its operands alone.
* `Expr.evaluatePredicate_eq_ok`: when a predicate answers.
-/

namespace WideRow

namespace Expr

/-! ### Induction and parts -/

@[induction_eliminator]
theorem induction {motive : Expr → Prop}
    (literal : ∀ value type, motive (literal value type))
    (column : ∀ c, motive (column c))
    (arithmetic : ∀ op operands, (∀ operand ∈ operands, motive operand) →
      motive (arithmetic op operands))
    (comparison : ∀ op left right, motive left → motive right →
      motive (comparison op left right))
    (e : Expr) : motive e :=
  @Expr.rec motive (fun operands => ∀ operand ∈ operands, motive operand) literal column arithmetic
    comparison (fun _ member => absurd member List.not_mem_nil)
    (fun _ _ first others => List.forall_mem_cons.mpr ⟨first, others⟩) e

/-- An expression is a node of another one. -/
inductive Within (part : Expr) : Expr → Prop
  | self : Within part part
  | operand {op : ArithmeticOp} {operands : List Expr} {operand : Expr}
      (member : operand ∈ operands) (inside : Within part operand) :
      Within part (arithmetic op operands)
  | left {op : CompareOp} {left right : Expr} (inside : Within part left) :
      Within part (comparison op left right)
  | right {op : CompareOp} {left right : Expr} (inside : Within part right) :
      Within part (comparison op left right)

/-! ### The equations of evaluation -/

/-- The values of some expressions on a row, from the left up to the first that fails. -/
def evaluateAll (row : Row) : List Expr → Fallible (List Value)
  | [] => .ok []
  | e :: rest => do
    let value ← e.evaluate row
    let others ← evaluateAll row rest
    return value :: others

theorem evaluateAll_eq_ok {row : Row} {operands : List Expr} {values : List Value} :
    evaluateAll row operands = .ok values ↔
      List.Forall₂ (fun e value => e.evaluate row = .ok value) operands values := by
  constructor
  · intro answer
    induction operands generalizing values with
    | nil =>
      injection answer with same
      rw [← same]
      exact .nil
    | cons e rest ih =>
      rw [evaluateAll] at answer
      cases first : e.evaluate row with
      | error fault =>
        rw [first] at answer
        cases answer
      | ok value =>
        cases later : evaluateAll row rest with
        | error fault =>
          rw [first, later] at answer
          cases answer
        | ok others =>
          rw [first, later] at answer
          injection answer with same
          rw [← same]
          exact .cons first (ih later)
  · intro each
    induction each with
    | nil => rfl
    | cons first _ ih =>
      rw [evaluateAll, first, ih]
      rfl

theorem settle_evaluator (row : Row) (node : Expr) (results : List (Fallible Value)) :
    Id.run ((evaluator row).settle node results) =
      match firstFault? results with
      | some fault => .error fault
      | none => apply row node (successes results) := by
  unfold Visitor.settle
  cases faulty : firstFault? results with
  | some fault =>
    have leaves : (evaluator row).leave node results = (none, results) := by
      simp only [evaluator, faulty]
    have falls : (evaluator row).fallback node results = .error fault := by
      simp only [evaluator, faulty]
    rw [leaves]
    exact falls
  | none =>
    have leaves : (evaluator row).leave node results =
        (some (apply row node (successes results)), []) := by
      simp only [evaluator, faulty]
    rw [leaves]
    rfl

theorem acceptAll_evaluator (row : Row) (operands : List Expr) :
    Id.run (acceptAll (evaluator row) operands) = operands.map fun e => e.evaluate row := by
  induction operands with
  | nil => rfl
  | cons e rest ih =>
    rw [acceptAll, List.map_cons, ← ih]
    rfl

/-- The visitor looks for a fault among all results; that is the first fault from the left. -/
theorem evaluateAll_eq (row : Row) (operands : List Expr) :
    evaluateAll row operands =
      match firstFault? (operands.map fun e => e.evaluate row) with
      | some fault => .error fault
      | none => .ok (successes (operands.map fun e => e.evaluate row)) := by
  induction operands with
  | nil => rfl
  | cons e rest ih =>
    rw [evaluateAll, List.map_cons]
    cases e.evaluate row with
    | error fault => rfl
    | ok value =>
      rw [ih, firstFault?]
      cases firstFault? (rest.map fun e => e.evaluate row) with
      | some fault => rfl
      | none => rfl

theorem evaluate_literal (value : Value) (type : Option DataType) (row : Row) :
    (literal value type).evaluate row = .ok value := by
  unfold evaluate accept
  exact settle_evaluator row (literal value type) []

theorem evaluate_column (c : Column) (row : Row) : (column c).evaluate row = c.read row := by
  unfold evaluate accept
  exact settle_evaluator row (column c) []

/-- The results of the operands, and then the node. -/
theorem settle_of_operands (row : Row) (node : Expr) (operands : List Expr) :
    Id.run ((evaluator row).settle node (operands.map fun e => e.evaluate row)) =
      evaluateAll row operands >>= apply row node := by
  rw [settle_evaluator, evaluateAll_eq]
  cases firstFault? (operands.map fun e => e.evaluate row) with
  | some fault => rfl
  | none => rfl

theorem apply_arithmetic {op : ArithmeticOp} {operands : List Expr} {type : DataType}
    (typed : (arithmetic op operands).type? = some type) (row : Row) (values : List Value) :
    apply row (arithmetic op operands) values =
      Arithmetic.evaluate op type (stepWidths op operands) values := by
  rw [type?, signature, arithmeticSignature] at typed
  injection typed with typed
  rw [← typed]
  rfl

theorem evaluate_arithmetic {op : ArithmeticOp} {operands : List Expr} {type : DataType}
    (typed : (arithmetic op operands).type? = some type) (row : Row) :
    (arithmetic op operands).evaluate row =
      evaluateAll row operands >>= Arithmetic.evaluate op type (stepWidths op operands) := by
  have node : apply row (arithmetic op operands) =
      Arithmetic.evaluate op type (stepWidths op operands) :=
    funext fun values => apply_arithmetic typed row values
  rw [← node, ← settle_of_operands, ← acceptAll_evaluator]
  rw [evaluate, accept]
  rfl

/-- The result of the node once its operands have the values: applied to them, and evaluated on every row
on which the operands have those values. -/
def Settles (node : Expr) (values : List Value) (result : Fallible Value) : Prop :=
  (∀ row, apply row node values = result) ∧
    ∀ row, evaluateAll row node.children = .ok values → node.evaluate row = result

theorem settles_arithmetic {op : ArithmeticOp} {operands : List Expr} {type : DataType}
    (typed : (arithmetic op operands).type? = some type) (values : List Value) :
    Settles (arithmetic op operands) values
      (Arithmetic.evaluate op type (stepWidths op operands) values) := by
  refine ⟨fun row => apply_arithmetic typed row values, ?_⟩
  intro row answers
  have answers : evaluateAll row operands = .ok values := answers
  rw [evaluate_arithmetic typed, answers]
  rfl

theorem evaluate_comparison (op : CompareOp) (left right : Expr) (row : Row) :
    (comparison op left right).evaluate row =
      left.evaluate row >>= fun first => right.evaluate row >>= fun second =>
        op.evaluate first second := by
  have operands := settle_of_operands row (comparison op left right) [left, right]
  have walk : (comparison op left right).evaluate row =
      Id.run ((evaluator row).settle (comparison op left right)
        ([left, right].map fun e => e.evaluate row)) := by
    rw [evaluate, accept]
    rfl
  rw [walk, operands, evaluateAll, evaluateAll, evaluateAll]
  cases left.evaluate row with
  | error fault => rfl
  | ok first =>
    cases right.evaluate row with
    | error fault => rfl
    | ok second => rfl

/-- When a predicate answers. -/
theorem evaluatePredicate_eq_ok {e : Expr} {row : Row} {b : Bool} :
    e.evaluatePredicate row = .ok b ↔
      e.evaluate row = .ok (.boolean b) ∨ e.evaluate row = .ok .null ∧ b = false := by
  unfold evaluatePredicate
  constructor
  · intro answer
    cases result : e.evaluate row with
    | error fault =>
      rw [result] at answer
      cases answer
    | ok value =>
      rw [result] at answer
      cases value with
      | boolean c =>
        injection answer with same
        exact .inl (by rw [same])
      | null =>
        injection answer with same
        exact .inr ⟨rfl, same.symm⟩
      | integer n => cases answer
      | float x => cases answer
      | decimal u s => cases answer
      | text s => cases answer
  · intro answer
    rcases answer with boolean | ⟨missing, same⟩
    · rw [boolean]
      rfl
    · rw [missing, same]
      rfl

end Expr

end WideRow
