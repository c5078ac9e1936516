import WideRow.Plan.Basic
import WideRow.Proofs.Expr.Arithmetic
import WideRow.Proofs.Expr.Evaluate
import WideRow.Proofs.Number.WidthFold

/-!
# The expression language is typed

An expression made in one of the checked ways is well typed: its literals are of their types, its
arithmetic is on numbers and its comparisons are of operands that can be compared.  What a well-typed
expression gives on any row is then known from its type.

* `Expr.Built.wellTyped`: what the checks of the constructors establish.
* `Expr.meets_evaluate`: the induction over the expression.
* `Expr.evaluate_sound`: the result for built expressions.
-/

namespace WideRow

open Fallible

theorem Width.scale_of_mem_steps {op : ArithmeticOp} {folded width : Width} {operands : List Width}
    (member : width ∈ Width.steps op folded operands) {scale : Nat}
    (fixed : width.scale = some scale) : scale ≤ Decimal.maxDigits := by
  obtain ⟨i, step⟩ := List.mem_iff_getElem?.mp member
  have formed := (Width.carries_first folded).steps op step
  by_cases incomplete : ∃ operand ∈ [folded] ++ operands.take (i + 1), operand.Incomplete
  · rw [formed.saturated_iff.mpr incomplete] at fixed
    cases fixed
  · obtain ⟨_, _, full, _, few⟩ := formed.limited incomplete
    rw [full] at fixed
    cases fixed
    exact few

namespace Expr

theorem smallScales_stepWidths (op : ArithmeticOp) (operands : List Expr) :
    Arithmetic.SmallScales (stepWidths op operands) := by
  intro width member scale fixed
  rw [stepWidths_eq_stepsOf] at member
  cases widths : operands.map Expr.width with
  | nil =>
    rw [widths] at member
    cases member
  | cons first rest =>
    rw [widths] at member
    exact Nat.lt_of_le_of_lt (Width.scale_of_mem_steps member fixed) (by decide)

/-! ### Well-typed expressions -/

/-- Literals are of their types, arithmetic is on numbers, and comparisons are of operands that can be
compared. -/
inductive WellTyped : Expr → Prop
  | literal {value : Value} {type : Option DataType} (made : value.LiteralOf type) :
      WellTyped (literal value type)
  | column (c : Column) : WellTyped (column c)
  | arithmetic (op : ArithmeticOp) {operands : List Expr}
      (numeric : ∀ operand ∈ operands, ∀ type, operand.type? = some type → type.isNumeric = true)
      (typed : ∀ operand ∈ operands, WellTyped operand) : WellTyped (arithmetic op operands)
  | comparison (op : CompareOp) {left right : Expr}
      (comparable : ∀ l r, left.type? = some l → right.type? = some r → l.comparable r = true)
      (first : WellTyped left) (second : WellTyped right) :
      WellTyped (comparison op left right)

theorem wellTyped_ofValue {value : Value}
    (small : ∀ unscaled scale, value = .decimal unscaled scale → scale ≤ Decimal.maxDigits) :
    WellTyped (ofValue value) :=
  .literal (.natural small)

theorem wellTyped_ofTyped {value : Value} {type : DataType} {e : Expr}
    (made : ofTyped value type = .ok e) : WellTyped e := by
  obtain ⟨held, cast, same⟩ := bind_eq_ok.mp made
  injection same with same
  rw [← same]
  refine .literal ?_
  rcases Value.held_of_cast cast with missing | held
  · rw [missing]
    exact .missing type
  · exact .held held

theorem checkAllNumeric_eq_ok {operands : List Expr} (checked : checkAllNumeric operands = .ok ()) :
    ∀ operand ∈ operands, ∀ type, operand.type? = some type → type.isNumeric = true := by
  induction operands with
  | nil => exact nofun
  | cons first rest ih =>
    obtain ⟨_, number, others⟩ := bind_eq_ok.mp checked
    intro operand member type declared
    rw [List.mem_cons] at member
    rcases member with same | later
    · rw [same] at declared
      rw [checkNumeric, declared] at number
      simp only at number
      split at number
      · assumption
      · cases number
    · exact ih others operand later type declared

theorem ofArithmetic_eq_ok {op : ArithmeticOp} {operands : List Expr} {e : Expr}
    (made : ofArithmetic op operands = .ok e) :
    2 ≤ operands.length ∧ checkAllNumeric operands = .ok () ∧ e = arithmetic op operands := by
  simp only [ofArithmetic] at made
  split at made
  · cases made
  · rename_i enough
    obtain ⟨_, checked, same⟩ := bind_eq_ok.mp made
    injection same with same
    exact ⟨Nat.le_of_not_lt enough, checked, same.symm⟩

theorem wellTyped_ofArithmetic {op : ArithmeticOp} {operands : List Expr} {e : Expr}
    (made : ofArithmetic op operands = .ok e) (typed : ∀ operand ∈ operands, WellTyped operand) :
    WellTyped e := by
  obtain ⟨_, checked, same⟩ := ofArithmetic_eq_ok made
  rw [same]
  exact .arithmetic op (checkAllNumeric_eq_ok checked) typed

theorem ofComparison_eq_ok {op : CompareOp} {left right e : Expr}
    (made : ofComparison op left right = .ok e) :
    e = comparison op left right ∧
      ∀ l r, left.type? = some l → right.type? = some r → l.comparable r = true := by
  simp only [ofComparison] at made
  split at made
  · rename_i leftType rightType leftKnown rightKnown
    split at made
    · rename_i comparable
      injection made with same
      refine ⟨same.symm, ?_⟩
      intro l r known known'
      rw [leftKnown, Option.some.injEq] at known
      rw [rightKnown, Option.some.injEq] at known'
      rw [← known, ← known']
      exact comparable
    · cases made
  · rename_i untyped
    injection made with same
    exact ⟨same.symm, fun l r known known' => (untyped l r known known').elim⟩

theorem wellTyped_ofComparison {op : CompareOp} {left right e : Expr}
    (made : ofComparison op left right = .ok e) (first : WellTyped left)
    (second : WellTyped right) : WellTyped e := by
  obtain ⟨same, comparable⟩ := ofComparison_eq_ok made
  rw [same]
  exact .comparison op comparable first second

/-- Every decimal literal of a surface expression has a scale that a type can declare. -/
inductive SmallLiterals : Surface → Prop
  | literal {value : Value}
      (small : ∀ unscaled scale, value = .decimal unscaled scale → scale ≤ Decimal.maxDigits) :
      SmallLiterals (.literal value)
  | column (c : Column) : SmallLiterals (.column c)
  | arithmetic (op : ArithmeticOp) {operands : List Surface}
      (each : ∀ operand ∈ operands, SmallLiterals operand) :
      SmallLiterals (.arithmetic op operands)
  | comparison (op : CompareOp) {left right : Surface} (first : SmallLiterals left)
      (second : SmallLiterals right) : SmallLiterals (.comparison op left right)

/-- An expression is made in one of the checked ways. -/
inductive Built : Expr → Prop
  | value {value : Value}
      (small : ∀ unscaled scale, value = .decimal unscaled scale → scale ≤ Decimal.maxDigits) :
      Built (ofValue value)
  | typed {value : Value} {type : DataType} {e : Expr} (made : ofTyped value type = .ok e) : Built e
  | column (c : Column) : Built (.column c)
  | arithmetic {op : ArithmeticOp} {operands : List Expr} {e : Expr}
      (each : ∀ operand ∈ operands, Built operand) (made : ofArithmetic op operands = .ok e) :
      Built e
  | comparison {op : CompareOp} {left right e : Expr} (first : Built left) (second : Built right)
      (made : ofComparison op left right = .ok e) : Built e
  | bind {surface : Surface} {e : Expr} (small : SmallLiterals surface)
      (made : surface.bind = .ok e) : Built e

theorem mem_bindAll {operands : List Surface} {bound : List Expr}
    (made : Surface.bindAll operands = .ok bound) :
    ∀ e ∈ bound, ∃ operand ∈ operands, operand.bind = .ok e := by
  induction operands generalizing bound with
  | nil =>
    injection made with same
    rw [← same]
    exact nofun
  | cons surface rest ih =>
    rw [Surface.bindAll] at made
    obtain ⟨first, head, made⟩ := bind_eq_ok.mp made
    obtain ⟨others, tail, same⟩ := bind_eq_ok.mp made
    injection same with same
    rw [← same]
    intro e member
    rw [List.mem_cons] at member
    rcases member with here | later
    · exact ⟨surface, List.mem_cons_self, here ▸ head⟩
    · obtain ⟨operand, among, made⟩ := ih tail e later
      exact ⟨operand, List.mem_cons_of_mem _ among, made⟩

theorem wellTyped_bind {surface : Surface} (small : SmallLiterals surface) {e : Expr}
    (made : surface.bind = .ok e) : WellTyped e := by
  induction small generalizing e with
  | literal small =>
    rw [Surface.bind] at made
    injection made with same
    exact same ▸ wellTyped_ofValue small
  | column c =>
    rw [Surface.bind] at made
    injection made with same
    exact same ▸ .column c
  | arithmetic op each ih =>
    rw [Surface.bind] at made
    obtain ⟨bound, operands, made⟩ := bind_eq_ok.mp made
    refine wellTyped_ofArithmetic made ?_
    intro operand member
    obtain ⟨surface, among, made⟩ := mem_bindAll operands operand member
    exact ih surface among made
  | comparison op first second ihFirst ihSecond =>
    rw [Surface.bind] at made
    obtain ⟨left, boundLeft, made⟩ := bind_eq_ok.mp made
    obtain ⟨right, boundRight, made⟩ := bind_eq_ok.mp made
    exact wellTyped_ofComparison made (ihFirst boundLeft) (ihSecond boundRight)

theorem Built.wellTyped {e : Expr} (built : Built e) : WellTyped e := by
  induction built with
  | value small => exact wellTyped_ofValue small
  | typed made => exact wellTyped_ofTyped made
  | column c => exact .column c
  | arithmetic each made ih => exact wellTyped_ofArithmetic made ih
  | comparison first second made ihFirst ihSecond =>
    exact wellTyped_ofComparison made ihFirst ihSecond
  | bind small made => exact wellTyped_bind small made

/-! ### Evaluation of well-typed expressions -/

/-- Somewhere in the expression a double that is not a number is compared. -/
def ComparesNaN (e : Expr) (row : Row) : Prop :=
  ∃ op left right operand value, Within (comparison op left right) e ∧
    (operand = left ∨ operand = right) ∧ operand.type? = some .double ∧
    operand.evaluate row = .ok value ∧ value.isNaN = true

/-- The faults in which a well-typed expression can end on a row. -/
def Expected (e : Expr) (row : Row) (fault : QueryFault) : Prop :=
  IsMalformed fault ∨ IsNumeric fault ∨
    (∃ left right, fault = .type (.incomparable left right)) ∧ e.ComparesNaN row

theorem Within.trans {part middle whole : Expr} (first : Within part middle)
    (second : Within middle whole) : Within part whole := by
  induction second with
  | self => exact first
  | operand member _ ih => exact .operand member ih
  | left _ ih => exact .left ih
  | right _ ih => exact .right ih

theorem Expected.of_within {part whole : Expr} {row : Row} {fault : QueryFault}
    (expected : Expected part row fault) (inside : Within part whole) :
    Expected whole row fault := by
  rcases expected with malformed | numeric | ⟨unordered, op, left, right, operand, value, within, rest⟩
  · exact .inl malformed
  · exact .inr (.inl numeric)
  · exact .inr (.inr ⟨unordered, op, left, right, operand, value, within.trans inside, rest⟩)

theorem meets_evaluateAll (row : Row) {operands : List Expr} {allowed : QueryFault → Prop}
    (each : ∀ operand ∈ operands,
      Meets (fun value => value.Inhabits operand.type?) allowed (operand.evaluate row)) :
    Meets (fun values => ∀ value ∈ values, ∃ operand ∈ operands, value.Inhabits operand.type?)
      allowed (evaluateAll row operands) := by
  induction operands with
  | nil =>
    intro value member
    cases member
  | cons e rest ih =>
    refine (each e List.mem_cons_self).bind fun value inhabits => ?_
    have others := ih fun operand member => each operand (List.mem_cons_of_mem _ member)
    refine others.bind fun values inhabit => ?_
    intro other member
    rw [List.mem_cons] at member
    rcases member with here | later
    · exact ⟨e, List.mem_cons_self, here ▸ inhabits⟩
    · obtain ⟨operand, among, inhabits⟩ := inhabit other later
      exact ⟨operand, List.mem_cons_of_mem _ among, inhabits⟩

theorem meets_read (c : Column) (row : Row) :
    Meets (fun value => value.Inhabits (some c.type)) IsMalformed (c.read row) := by
  refine (meets_ofRecord _).bind fun found _ => ?_
  cases found with
  | none => exact .inl rfl
  | some bytes =>
    exact (Value.meets_decode bytes c.type).mono (fun value typed => .inr ⟨c.type, rfl, typed⟩)
      fun _ malformed => malformed

theorem type?_literal (value : Value) (type : Option DataType) :
    (literal value type).type? = type := by
  cases type <;> rfl

theorem meets_comparison {op : CompareOp} {left right : Expr} {row : Row}
    (comparable : ∀ l r, left.type? = some l → right.type? = some r → l.comparable r = true)
    (first : Meets (fun value => value.Inhabits left.type?) (Expected left row) (left.evaluate row))
    (second : Meets (fun value => value.Inhabits right.type?) (Expected right row)
      (right.evaluate row)) :
    Meets (fun value => value.Inhabits (some .boolean)) (Expected (comparison op left right) row)
      ((comparison op left right).evaluate row) := by
  rw [evaluate_comparison]
  cases leftAnswer : left.evaluate row with
  | error fault => exact (first.of_error leftAnswer).of_within (.left .self)
  | ok l =>
    cases rightAnswer : right.evaluate row with
    | error fault => exact (second.of_error rightAnswer).of_within (.right .self)
    | ok r =>
      have leftInhabits := first.of_ok leftAnswer
      have rightInhabits := second.of_ok rightAnswer
      refine (Value.meets_compare op leftInhabits rightInhabits comparable).mono
        (fun _ inhabits => inhabits) ?_
      intro fault ⟨unordered, nan⟩
      refine .inr (.inr ⟨⟨l, r, unordered⟩, ?_⟩)
      rcases nan with nan | nan
      · exact ⟨op, left, right, left, l, .self, .inl rfl, leftInhabits.type_of_isNaN nan, leftAnswer,
          nan⟩
      · exact ⟨op, left, right, right, r, .self, .inr rfl, rightInhabits.type_of_isNaN nan,
          rightAnswer, nan⟩

/-- A well-typed expression gives a missing value or one of its type, or ends in an expected fault. -/
theorem meets_evaluate {e : Expr} (typed : WellTyped e) (row : Row) :
    Meets (fun value => value.Inhabits e.type?) (Expected e row) (e.evaluate row) := by
  induction typed with
  | literal made =>
    rw [evaluate_literal, type?_literal]
    exact made.inhabits
  | column c =>
    rw [evaluate_column]
    exact (meets_read c row).mono (fun _ inhabits => inhabits) fun _ malformed => .inl malformed
  | arithmetic op numeric typed ih =>
    rename_i operands
    have known := type?_arithmetic op operands
    rw [evaluate_arithmetic known, known]
    have each : ∀ operand ∈ operands, Meets (fun value => value.Inhabits operand.type?)
        (Expected (.arithmetic op operands) row) (operand.evaluate row) := by
      intro operand member
      exact (ih operand member).mono (fun _ inhabits => inhabits)
        fun _ expected => expected.of_within (.operand member .self)
    refine (meets_evaluateAll row each).bind fun values inhabit => ?_
    have numbers : Arithmetic.NumericFor (operands.map signature) values := by
      intro value member
      obtain ⟨operand, among, inhabits⟩ := inhabit value member
      exact ⟨operand.signature, List.mem_map_of_mem among, inhabits, numeric operand among⟩
    exact (Arithmetic.meets_evaluate op _ (smallScales_stepWidths op operands) numbers).mono
      (fun _ inhabits => inhabits) fun _ numeric => .inr (.inl numeric)
  | comparison op comparable first second ihFirst ihSecond =>
    exact meets_comparison comparable ihFirst ihSecond

theorem type?_of_checkCondition {e : Expr} (checked : Plan.checkCondition (some e) = .ok ()) :
    e.type? = none ∨ e.type? = some .boolean := by
  unfold Plan.checkCondition at checked
  cases known : e.type? with
  | none => exact .inl rfl
  | some type =>
    simp only [known] at checked
    cases type with
    | boolean => exact .inr rfl
    | integer => cases checked
    | bigInt => cases checked
    | decimal precision scale => cases checked
    | double => cases checked
    | varchar => cases checked

/-- A condition that is a boolean, or has no type, fails only where its evaluation fails. -/
theorem evaluate_of_evaluatePredicate_error {e : Expr} {row : Row} {fault : QueryFault}
    (condition : e.type? = none ∨ e.type? = some .boolean)
    (inhabits : ∀ value, e.evaluate row = .ok value → value.Inhabits e.type?)
    (failed : e.evaluatePredicate row = .error fault) : e.evaluate row = .error fault := by
  unfold evaluatePredicate at failed
  cases answer : e.evaluate row with
  | error cause =>
    rw [answer] at failed
    injection failed with same
    rw [same]
  | ok value =>
    rw [answer] at failed
    rcases inhabits value answer with missing | ⟨type, declared, typed⟩
    · rw [missing] at failed
      cases failed
    · rcases condition with untyped | boolean
      · rw [untyped] at declared
        cases declared
      · rw [boolean] at declared
        injection declared with same
        rw [← same] at typed
        obtain ⟨b, same⟩ := typed.eq_boolean
        rw [same] at failed
        cases failed

/-- **Evaluation is type sound.**  On every row, a built expression gives a missing value or a value of
its type, or it ends in a malformed record, an overflow or a division by zero, or else in a comparison
of a double that is not a number.  A condition that a plan accepts never fails for not being a
boolean. -/
theorem evaluate_sound {e : Expr} (built : Built e) (row : Row) :
    (∀ value, e.evaluate row = .ok value →
      value = .null ∨ ∃ type, e.type? = some type ∧ value.HasType type) ∧
    (∀ fault, e.evaluate row = .error fault →
      (∃ cause, fault = .malformedRecord cause) ∨
      fault = .numeric .overflow ∨
      fault = .numeric .divisionByZero ∨
      (∃ left right, fault = .type (.incomparable left right)) ∧ e.ComparesNaN row) ∧
    (Plan.checkCondition (some e) = .ok () →
      ∀ text found, e.evaluatePredicate row ≠ .error (.type (.nonBoolean text found))) := by
  have meets := meets_evaluate built.wellTyped row
  refine ⟨fun value answer => meets.of_ok answer, ?_, ?_⟩
  · intro fault answer
    rcases meets.of_error answer with malformed | ⟨cause, numeric⟩ | unordered
    · exact .inl malformed
    · cases cause with
      | overflow => exact .inr (.inl numeric)
      | divisionByZero => exact .inr (.inr (.inl numeric))
    · exact .inr (.inr (.inr unordered))
  · intro checked text found failed
    have answer := evaluate_of_evaluatePredicate_error (type?_of_checkCondition checked)
      (fun value answer => meets.of_ok answer) failed
    rcases meets.of_error answer with ⟨_, malformed⟩ | ⟨_, numeric⟩ | ⟨⟨_, _, unordered⟩, _⟩
    · cases malformed
    · cases numeric
    · cases unordered

/-- The row of a record with one cell, which has these bytes in the column `f:q`. -/
def rowOfCell (value : Bytes) : Row :=
  let record := Record.entry (Cell.bytes ⟨[114], [102], [113], Signed.zero 64, 4, value⟩)
  ⟨⟨record, 14, 1⟩, .record (Span.whole record) none⟩

/-- The condition that a flag is set. -/
def flagCondition : Expr := comparison .equal (column ⟨[102], [113], .boolean⟩) (ofValue (.boolean true))

theorem evaluate_sound_flag :
    Built flagCondition ∧ Plan.checkCondition (some flagCondition) = .ok () ∧
      flagCondition.evaluate (rowOfCell [1]) = .ok (.boolean true) ∧
      (∃ type, flagCondition.type? = some type ∧ (Value.boolean true).HasType type) ∧
      ∀ text found, flagCondition.evaluatePredicate (rowOfCell [1]) ≠
        .error (.type (.nonBoolean text found)) := by
  have literal : Built (ofValue (.boolean true)) := by
    refine .value ?_
    intro unscaled scale same
    cases same
  have made : ofComparison .equal (column ⟨[102], [113], .boolean⟩) (ofValue (.boolean true)) =
      .ok flagCondition := rfl
  have built : Built flagCondition := .comparison (.column _) literal made
  have answer : flagCondition.evaluate (rowOfCell [1]) = .ok (.boolean true) := by
    decide +kernel
  obtain ⟨typed, _, boolean⟩ := evaluate_sound built (rowOfCell [1])
  exact ⟨built, rfl, answer, (typed _ answer).resolve_left nofun, boolean rfl⟩

end Expr

end WideRow
