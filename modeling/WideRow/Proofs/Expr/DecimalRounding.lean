import Mathlib.Algebra.BigOperators.Group.List.Basic
import WideRow.Proofs.Expr.Arithmetic
import WideRow.Proofs.Expr.Evaluate
import WideRow.Proofs.Number.Rational

/-!
# Folds of decimals round once

A fold of sums, differences or products keeps the exact rational number at the scale that it takes to
write it, or it overflows.  Only then is it brought to the scale of the node, and that is the one place
where it is rounded.

* `Arithmetic.Exactly`: a decimal that is an exact number at the scale of its digits.
* `Arithmetic.exact_decimalStep`, `Arithmetic.exact_foldDecimal`: the invariant of a step and of the fold.
* `Expr.decimal_fold_rounded`: the result for a node.
-/

namespace WideRow

open Fallible

/-! ### The operators on rational numbers -/

/-- The operator on rational numbers. -/
def ArithmeticOp.onRat : ArithmeticOp → ℚ → ℚ → ℚ
  | .add, x, y => x + y
  | .subtract, x, y => x - y
  | .multiply, x, y => x * y
  | .divide, x, y => x / y

/-- The sum, difference, product or quotient of a first number and some others. -/
def ArithmeticOp.exact (op : ArithmeticOp) (first : ℚ) (others : List ℚ) : ℚ :=
  match op with
  | .add => first + others.sum
  | .subtract => first - others.sum
  | .multiply => first * others.prod
  | .divide => first / others.prod

/-- The sum, difference, product or quotient of some numbers, taken from the first one. -/
def ArithmeticOp.total (op : ArithmeticOp) : List ℚ → ℚ
  | [] => 0
  | first :: others => op.exact first others

theorem ArithmeticOp.exact_nil (op : ArithmeticOp) (first : ℚ) : op.exact first [] = first := by
  cases op with
  | add => exact add_zero first
  | subtract => exact sub_zero first
  | multiply => exact mul_one first
  | divide => exact div_one first

theorem ArithmeticOp.exact_cons (op : ArithmeticOp) (first next : ℚ) (others : List ℚ) :
    op.exact first (next :: others) = op.exact (op.onRat first next) others := by
  cases op with
  | add =>
    show first + (next :: others).sum = first + next + others.sum
    rw [List.sum_cons, add_assoc]
  | subtract =>
    show first - (next :: others).sum = first - next - others.sum
    rw [List.sum_cons, sub_sub]
  | multiply =>
    show first * (next :: others).prod = first * next * others.prod
    rw [List.prod_cons, mul_assoc]
  | divide =>
    show first / (next :: others).prod = first / next / others.prod
    rw [List.prod_cons, div_div]

/-- The number that an exact value stands for. -/
def Value.toRat (value : Value) : ℚ :=
  match value.fixedPoint? with
  | some (unscaled, scale) => Decimal.toRat unscaled scale
  | none => 0

/-! ### Scales -/

/-- The scale of the exact result of one step: that of both numbers together for a product, the larger of
the two otherwise. -/
def ArithmeticOp.onScales : ArithmeticOp → Nat → Nat → Nat
  | .multiply, j, k => j + k
  | _, j, k => max j k

/-- The scale of the exact result of a fold. -/
def ArithmeticOp.exactScale (op : ArithmeticOp) (scales : List Nat) : Nat :=
  match op with
  | .multiply => scales.sum
  | _ => scales.foldr max 0

theorem ArithmeticOp.exactScale_singleton (op : ArithmeticOp) (scale : Nat) :
    op.exactScale [scale] = scale := by
  cases op with
  | add => exact Nat.max_zero scale
  | subtract => exact Nat.max_zero scale
  | multiply => exact List.sum_singleton
  | divide => exact Nat.max_zero scale

theorem ArithmeticOp.exactScale_cons_cons (op : ArithmeticOp) (first next : Nat) (rest : List Nat) :
    op.exactScale (first :: next :: rest) = op.exactScale (op.onScales first next :: rest) := by
  have common : (first :: next :: rest).foldr max 0 = (max first next :: rest).foldr max 0 :=
    (Nat.max_assoc first next _).symm
  cases op with
  | add => exact common
  | subtract => exact common
  | multiply =>
    show (first :: next :: rest).sum = ((first + next) :: rest).sum
    rw [List.sum_cons, List.sum_cons, List.sum_cons, Nat.add_assoc]
  | divide => exact common

/-- The value is an integer or a decimal. -/
def Value.IsExact (value : Value) : Prop :=
  ∃ unscaled scale, value.fixedPoint? = some (unscaled, scale)

/-- The number of places that an exact value has. -/
def Value.places (value : Value) : Nat :=
  match value.fixedPoint? with
  | some (_, scale) => scale
  | none => 0

namespace Arithmetic

/-- The number that a decimal on the way through a fold stands for. -/
def Partial.toRat (held : Partial) : ℚ := Decimal.toRat held.unscaled held.scale

theorem decimalOperand_eq_ok {value : Value} {held : Partial} :
    decimalOperand value = .ok held ↔ value.fixedPoint? = some (held.unscaled, held.scale) := by
  rw [decimalOperand]
  constructor
  · intro answer
    cases fixed : value.fixedPoint? with
    | none =>
      rw [fixed] at answer
      cases answer
    | some parts =>
      rw [fixed] at answer
      injection answer with same
      rw [← same]
  · intro fixed
    rw [fixed]

theorem toRat_of_decimalOperand {value : Value} {held : Partial}
    (operand : decimalOperand value = .ok held) : value.toRat = held.toRat := by
  rw [Value.toRat, decimalOperand_eq_ok.mp operand]
  rfl

/-- The decimal has the scale, and stands for the number. -/
structure Exactly (scale : Nat) (number : ℚ) (held : Partial) : Prop where
  scale : held.scale = scale
  toRat : held.toRat = number

theorem exact_decimalOperand {value : Value} (exact_ : value.IsExact) :
    Meets (Exactly value.places value.toRat) IsOverflow (decimalOperand value) := by
  obtain ⟨unscaled, scale, fixed⟩ := exact_
  have taken : decimalOperand value = .ok ⟨unscaled, scale⟩ := decimalOperand_eq_ok.mpr fixed
  rw [taken]
  refine ⟨?_, (toRat_of_decimalOperand taken).symm⟩
  rw [Value.places, fixed]

/-! ### Steps -/

/-- Aligning two decimals adds digits only, so what they are combined to is exact. -/
theorem exact_combineAligned {combine : Int → Int → Int} {onRat : ℚ → ℚ → ℚ}
    (agrees : ∀ (m n : Int) (t : ℚ), (combine m n : ℚ) / t = onRat (m / t) (n / t))
    (folded next : Partial) :
    Meets (Exactly (max folded.scale next.scale) (onRat folded.toRat next.toRat)) IsOverflow
      (combineAligned combine folded next) := by
  refine (overflows_orOverflow _).bind fun a leftAligned => ?_
  refine (overflows_orOverflow _).bind fun b rightAligned => ?_
  refine (overflows_orOverflow _).bind fun total fits => ?_
  refine ⟨rfl, ?_⟩
  have left := Decimal.toRat_of_rescale? (Nat.le_max_left folded.scale next.scale) leftAligned
  have right := Decimal.toRat_of_rescale? (Nat.le_max_right folded.scale next.scale) rightAligned
  show Decimal.toRat total (max folded.scale next.scale) = _
  rw [Decimal.toRat, Signed.ofInt?_eq_some.mp fits, agrees, Partial.toRat, ← left, Partial.toRat,
    ← right]
  rfl

/-- A product is cut only beyond the largest scale. -/
theorem exact_multiplyExact {folded next : Partial}
    (few : folded.scale + next.scale ≤ Decimal.maxDigits) :
    Meets (Exactly (folded.scale + next.scale) (folded.toRat * next.toRat)) IsOverflow
      (multiplyExact folded next) := by
  refine (overflows_orOverflow _).bind fun product fits => ?_
  simp only
  rw [if_neg (Nat.not_lt.mpr few)]
  refine ⟨rfl, ?_⟩
  show Decimal.toRat product (folded.scale + next.scale) = _
  rw [Decimal.toRat, Signed.ofInt?_eq_some.mp fits, Decimal.tenTo_add, Int.cast_mul, Nat.cast_mul,
    mul_div_mul_comm]
  rfl

theorem exact_decimalStep {op : ArithmeticOp} (closed : op ≠ .divide) {folded next : Partial}
    (few : op = .multiply → folded.scale + next.scale ≤ Decimal.maxDigits) (step : Width) :
    Meets (Exactly (op.onScales folded.scale next.scale) (op.onRat folded.toRat next.toRat))
      IsOverflow (decimalStep op step folded next) := by
  cases op with
  | add => exact exact_combineAligned (fun m n t => by rw [Int.cast_add, add_div]; rfl) folded next
  | subtract => exact exact_combineAligned (fun m n t => by rw [Int.cast_sub, sub_div]; rfl) folded next
  | multiply => exact exact_multiplyExact (few rfl)
  | divide => exact absurd rfl closed

/-! ### Folds -/

/-- A fold of sums, differences or products is exact or overflows, as long as no scale is cut. -/
theorem exact_foldDecimal {op : ArithmeticOp} (closed : op ≠ .divide) {folded : Partial}
    {values : List Value} {steps : List Width} (arity : values.length = steps.length)
    (exact_ : ∀ value ∈ values, value.IsExact)
    (few : op = .multiply → (folded.scale :: values.map Value.places).sum ≤ Decimal.maxDigits) :
    Meets (Exactly (op.exactScale (folded.scale :: values.map Value.places))
      (op.exact folded.toRat (values.map Value.toRat))) IsOverflow
      (foldDecimal op folded values steps) := by
  induction values generalizing folded steps with
  | nil => exact ⟨(op.exactScale_singleton _).symm, (op.exact_nil _).symm⟩
  | cons value rest ih =>
    cases steps with
    | nil => cases arity
    | cons step steps =>
      rw [List.map_cons, List.map_cons, op.exactScale_cons_cons, op.exact_cons]
      obtain ⟨first, others⟩ := List.forall_mem_cons.mp exact_
      refine (exact_decimalOperand first).bind fun next ⟨scale, number⟩ => ?_
      rw [← scale, ← number]
      rw [List.map_cons, List.sum_cons, List.sum_cons, ← scale, ← Nat.add_assoc] at few
      have now : op = .multiply → folded.scale + next.scale ≤ Decimal.maxDigits :=
        fun product => Nat.le_trans (Nat.le_add_right _ _) (few product)
      refine (exact_decimalStep closed now step).bind fun middle ⟨scale, number⟩ => ?_
      rw [← scale, ← number]
      refine ih (Nat.succ.inj arity) others ?_
      rintro rfl
      rw [List.sum_cons, scale]
      exact few rfl

/-! ### The result -/

/-- The decimal is the number, rounded at the scale of the width, or at the given scale if the width leaves
it open.  It has no more digits than a full width allows. -/
structure Rounded (width : Width) (scale : Nat) (number : ℚ) (result : Partial) : Prop where
  place : result.scale = width.scale.getD scale
  rounded : result.unscaled.val = Decimal.roundAway (number * Decimal.tenTo result.scale)
  few : ∀ digits place, width = Width.fixed digits place → Decimal.digits result.unscaled ≤ digits

theorem overflows_checkDigits (value : Unscaled) (limit : Option Nat) :
    Meets (fun _ => ∀ most, limit = some most → Decimal.digits value ≤ most) IsOverflow
      (ofNumeric (Decimal.checkDigits value limit)) := by
  cases limit with
  | none => exact nofun
  | some most =>
    by_cases many : most < Decimal.digits value
    · rw [Decimal.checkDigits, if_pos many]
      exact rfl
    · rw [Decimal.checkDigits, if_neg many]
      intro other same
      injection same with same
      exact same ▸ Nat.le_of_not_lt many

theorem rounded_fitToWidth (width : Width) (held : Partial) :
    Meets (Rounded width held.scale held.toRat) IsOverflow (fitToWidth width held) := by
  unfold fitToWidth
  cases open_ : width.scale with
  | none =>
    refine ⟨?_, Decimal.rescale?_rounded (Decimal.rescale?_self held.unscaled held.scale), ?_⟩
    · rw [open_]
      rfl
    · rintro digits place rfl
      cases open_
  | some scale =>
    refine (overflows_orOverflow _).bind fun rescaled kept => ?_
    refine (overflows_checkDigits rescaled width.digits).bind fun _ few => ?_
    refine ⟨?_, Decimal.rescale?_rounded kept, ?_⟩
    · rw [open_]
      rfl
    · rintro digits place rfl
      exact few digits rfl

theorem rounded_onDecimals {op : ArithmeticOp} (closed : op ≠ .divide) {first : Value}
    {rest : List Value} {steps : List Width} (arity : rest.length = steps.length)
    (exact_ : ∀ value ∈ first :: rest, value.IsExact)
    (few : op = .multiply → ((first :: rest).map Value.places).sum ≤ Decimal.maxDigits) :
    Meets (fun value => ∃ result : Partial, value = .decimal result.unscaled result.scale ∧
        Rounded (Expr.lastWidth steps) (op.exactScale ((first :: rest).map Value.places))
          (op.total ((first :: rest).map Value.toRat)) result) IsOverflow
      (onDecimals op steps (first :: rest)) := by
  obtain ⟨here, others⟩ := List.forall_mem_cons.mp exact_
  refine (exact_decimalOperand here).bind fun start ⟨scale, number⟩ => ?_
  rw [List.map_cons, List.map_cons, ArithmeticOp.total, ← scale, ← number]
  rw [List.map_cons, ← scale] at few
  refine (exact_foldDecimal closed arity others few).bind fun folded ⟨scale, number⟩ => ?_
  rw [← scale, ← number]
  refine (rounded_fitToWidth _ folded).bind fun result rounded => ?_
  exact ⟨result, rfl, rounded⟩

theorem any_isNull_of_exact {values : List Value} (exact_ : ∀ value ∈ values, value.IsExact) :
    values.any Value.isNull = false := by
  rw [List.any_eq_false]
  intro value member missing
  obtain ⟨unscaled, scale, fixed⟩ := exact_ value member
  cases value <;> cases missing
  cases fixed

end Arithmetic

namespace Expr

/-- **Decimal sums, differences and products are never silently wrong.**  Take a decimal node and exact
values for its operands, of any scales; those of a product are together no more than are allowed.  Either
the node overflows, or it has a value: the exact sum, difference or product, rounded once at the scale of
the node, with no more digits than the node allows.  A node without a scale has the one at which the result
is exact. -/
theorem decimal_fold_rounded {op : ArithmeticOp} {operands : List Expr} {values : List Value}
    {precision scale : Option Nat} (closed : op ≠ .divide)
    (typed : (arithmetic op operands).type? = some (.decimal precision scale))
    (arity : values.length = operands.length) (exact_ : ∀ value ∈ values, value.IsExact)
    (few : op = .multiply → (values.map Value.places).sum ≤ Decimal.maxDigits) :
    ∃ result, Settles (arithmetic op operands) values result ∧
      (result = .error (.numeric .overflow) ∨
        ∃ held : Arithmetic.Partial, result = .ok (.decimal held.unscaled held.scale) ∧
          Arithmetic.Rounded (arithmetic op operands).width (op.exactScale (values.map Value.places))
            (op.total (values.map Value.toRat)) held) := by
  refine ⟨_, settles_arithmetic typed values, ?_⟩
  rw [Arithmetic.evaluate_decimal (Arithmetic.any_isNull_of_exact exact_), width_arithmetic]
  cases operands with
  | nil =>
    rw [type?_arithmetic] at typed
    cases typed
  | cons operand others =>
    cases values with
    | nil => cases arity
    | cons first rest =>
      have steps : rest.length = (stepWidths op (operand :: others)).length := by
        rw [stepWidths_eq_stepsOf, List.map_cons, stepsOf, Width.steps_length, List.length_map]
        exact Nat.succ.inj arity
      have meets := Arithmetic.rounded_onDecimals closed steps exact_ few
      cases answer : Arithmetic.onDecimals op (stepWidths op (operand :: others)) (first :: rest) with
      | error fault => exact .inl (congrArg _ (meets.of_error answer))
      | ok value =>
        obtain ⟨held, same, rounded⟩ := meets.of_ok answer
        exact .inr ⟨held, congrArg _ same, rounded⟩

/-- The numbers -1.25 and 0.200. -/
def longValues : List Value :=
  [.decimal ⟨-125, by decide, by decide⟩ 2, .decimal ⟨200, by decide, by decide⟩ 3]

/-- The difference of those numbers, as literals of one declared place. -/
def longDifference : Expr :=
  arithmetic .subtract (longValues.map fun value => literal value (some (.decimal (some 3) (some 1))))

theorem exact_longValues : ∀ value ∈ longValues, value.IsExact := by
  intro value member
  rw [longValues, List.mem_cons, List.mem_singleton] at member
  rcases member with same | same
  · exact ⟨_, _, congrArg Value.fixedPoint? same⟩
  · exact ⟨_, _, congrArg Value.fixedPoint? same⟩

/-- The difference is half way between two numbers of one place. -/
theorem decimal_fold_rounded_longDifference :
    longDifference.type? = some (.decimal (some 4) (some 1)) ∧
      (∀ value ∈ longValues, value.IsExact) ∧
      longDifference.evaluate Row.empty = .ok (.decimal ⟨-15, by decide, by decide⟩ 1) ∧
      -15 = Decimal.roundAway
        (ArithmeticOp.total .subtract (longValues.map Value.toRat) * Decimal.tenTo 1) := by
  have typed : longDifference.type? = some (.decimal (some 4) (some 1)) := rfl
  have closed : ArithmeticOp.subtract ≠ .divide := nofun
  have values : evaluateAll Row.empty longDifference.children = .ok longValues := rfl
  have answer : longDifference.evaluate Row.empty = .ok (.decimal ⟨-15, by decide, by decide⟩ 1) := by
    rw [longDifference, evaluate_arithmetic typed]
    decide +kernel
  refine ⟨typed, exact_longValues, answer, ?_⟩
  obtain ⟨result, ⟨_, settled⟩, outcome⟩ :=
    decimal_fold_rounded closed typed rfl exact_longValues nofun
  have same : result = .ok (.decimal ⟨-15, by decide, by decide⟩ 1) :=
    (settled Row.empty values).symm.trans answer
  rw [same] at outcome
  rcases outcome with overflow | ⟨held, value, rounded⟩
  · cases overflow
  · injection value with value
    injection value with unscaled place
    have val := rounded.rounded
    rw [← unscaled, ← place] at val
    exact val

end Expr

end WideRow
