import WideRow.Proofs.Expr.DecimalFold

/-!
# Folds of decimal divisions

The rule for the width of a quotient takes as many places as leave room for the scaled dividend.  Unless
that number would be negative, a division step on decimals that fill their widths does not overflow: the
dividend, scaled up, has exactly as many digits as are allowed, and the quotient has no more.

* `Arithmetic.RoundedQuotient`: what holds of one step.
* `Arithmetic.DivisionRun`: a fold, step by step.
* `Expr.decimal_division_rounded`: the result for a node.
-/

namespace WideRow

open Fallible

namespace Width

/-- The places that the rule takes for a quotient are not negative. -/
def LeavesPlaces (folded next : Width) : Prop :=
  ∀ ld ls rd rs, folded = fixed ld ls → next = fixed rd rs →
    0 ≤ (Decimal.maxDigits : Int) - ld + ls - rs

theorem leavesPlaces_fixed {ld ls rd rs : Nat}
    (room : 0 ≤ (Decimal.maxDigits : Int) - ld + ls - rs) :
    LeavesPlaces (fixed ld ls) (fixed rd rs) := by
  intro _ _ _ _ left right
  cases left
  cases right
  exact room

theorem ordered_fixed {digits scale : Nat} (within : scale ≤ digits)
    (most : digits ≤ Decimal.maxDigits) : Ordered (fixed digits scale) := by
  intro _ _ same
  cases same
  exact ⟨within, most⟩

/-- Where its places are not negative, a quotient is allowed all digits. -/
theorem combine_divide {ld ls rd rs : Nat} (left : ls ≤ ld) (most : ld ≤ Decimal.maxDigits)
    (right : rs ≤ rd) (room : 0 ≤ (Decimal.maxDigits : Int) - ld + ls - rs) :
    combine .divide (fixed ld ls) (fixed rd rs) =
      fixed Decimal.maxDigits (Decimal.maxDigits - (ld - ls) - rs) := by
  have scale : clamp (quotientRule ld ls rd rs).2 = Decimal.maxDigits - (ld - ls) - rs := by
    simp only [clamp, quotientRule]
    omega
  have digits : clamp (quotientRule ld ls rd rs).1 = Decimal.maxDigits := by
    simp only [clamp, quotientRule]
    omega
  rw [← scale]
  exact congrArg (fun most => fixed most _) digits

end Width

namespace Arithmetic

/-- The quotient of a step: it is computed without overflow, has the scale of the step and no more digits
than are allowed, and is the rational quotient rounded at that scale. -/
structure RoundedQuotient (step : Width) (folded divisor quotient : Partial) : Prop where
  scale : step.scale = some quotient.scale
  aligned : ∃ numerator denominator, Decimal.alignForDivision? folded.unscaled folded.scale
    divisor.unscaled divisor.scale quotient.scale = some (numerator, denominator)
  computed : decimalStep .divide step folded divisor = .ok quotient
  digits : Decimal.digits quotient.unscaled ≤ Decimal.maxDigits
  rounded : quotient.unscaled.val =
    Decimal.roundAway (folded.toRat / divisor.toRat * Decimal.tenTo quotient.scale)

/-- A fold of divisions: every partial quotient is that of the one before it and the next operand. -/
inductive DivisionRun : Partial → List Value → List Width → Partial → Prop
  | done {result : Partial} : DivisionRun result [] [] result
  | step {folded divisor quotient result : Partial} {value : Value} {values : List Value}
      {step : Width} {steps : List Width} (taken : decimalOperand value = .ok divisor)
      (divided : RoundedQuotient step folded divisor quotient)
      (rest : DivisionRun quotient values steps result) :
      DivisionRun folded (value :: values) (step :: steps) result

theorem DivisionRun.fold {start result : Partial} {values : List Value} {steps : List Width}
    (run : DivisionRun start values steps result) :
    foldDecimal .divide start values steps = .ok result := by
  induction run with
  | done => rfl
  | step taken divided _ ih =>
    exact bind_eq_ok.mpr ⟨_, taken, bind_eq_ok.mpr ⟨_, divided.computed, ih⟩⟩

/-- One step of a division whose places are not negative. -/
theorem decimalStep_divide {folded divisor : Partial} {a b : Width} (left : folded.Fills a)
    (right : divisor.Fills b) (leftOrdered : a.Ordered) (rightOrdered : b.Ordered)
    (room : Width.LeavesPlaces a b) (nonzero : divisor.toRat ≠ 0) :
    ∃ quotient, RoundedQuotient (Width.combine .divide a b) folded divisor quotient ∧
      quotient.Fills (Width.combine .divide a b) := by
  obtain ⟨ld, rfl, leftFew⟩ := left
  obtain ⟨rd, rfl, rightFew⟩ := right
  obtain ⟨leftLe, leftMost⟩ := leftOrdered ld folded.scale rfl
  obtain ⟨rightLe, _⟩ := rightOrdered rd divisor.scale rfl
  have places := room ld folded.scale rd divisor.scale rfl rfl
  obtain ⟨_, small⟩ := Decimal.digits_le_iff.mp leftFew
  rw [Width.combine_divide leftLe leftMost rightLe places]
  -- the dividend is scaled up to all the digits that are allowed
  have most : ld + (Decimal.maxDigits - ld) ≤ Decimal.maxDigits := by omega
  have shift : Decimal.maxDigits - (ld - folded.scale) - divisor.scale + divisor.scale =
      folded.scale + (Decimal.maxDigits - ld) := by omega
  obtain ⟨numerator, quotient, aligned, computed, quotientSmall, rounded⟩ :=
    Decimal.divide_rounded small most shift (mt Decimal.toRat_eq_zero.mpr nonzero)
  have few : Decimal.digits quotient ≤ Decimal.maxDigits := by
    refine Decimal.digits_le_iff.mpr ⟨by decide, ?_⟩
    rw [← Nat.add_sub_cancel' leftMost]
    exact quotientSmall
  refine ⟨⟨quotient, _⟩, ⟨rfl, ⟨numerator, _, aligned⟩, ?_, few, rounded⟩, _, rfl, few⟩
  exact bind_eq_ok.mpr ⟨quotient, ofNumeric_eq_ok.mpr computed, rfl⟩

/-- A fold of divisions whose places are not negative, on operands that fill their widths. -/
theorem divisionRun_of_fills {start : Partial} {width : Width} {values : List Value}
    {widths : List Width} (fills : start.Fills width) (ordered : width.Ordered)
    (operands : List.Forall₂ ValueFills values widths) (each : ∀ next ∈ widths, next.Ordered)
    (room : Width.EveryStep .divide Width.LeavesPlaces width widths)
    (nonzero : ∀ divisor ∈ values, divisor.toRat ≠ 0) :
    ∃ result, DivisionRun start values (Width.steps .divide width widths) result ∧
      result.Fills (widths.foldl (Width.combine .divide) width) := by
  induction operands generalizing start width with
  | nil => exact ⟨start, .done, fills⟩
  | @cons value next values widths operand _ ih =>
    obtain ⟨divisor, taken, divisorFills⟩ := operand
    obtain ⟨now, later⟩ := room
    rw [List.forall_mem_cons] at each nonzero
    rw [toRat_of_decimalOperand taken] at nonzero
    obtain ⟨quotient, divided, quotientFills⟩ :=
      decimalStep_divide fills divisorFills ordered each.1 now nonzero.1
    have nextOrdered : (Width.combine .divide width next).Ordered :=
      Width.ordered_combine ordered each.1
    obtain ⟨result, run, resultFills⟩ := ih quotientFills nextOrdered each.2 later nonzero.2
    exact ⟨result, .step taken divided run, resultFills⟩

theorem onDecimals_divides {values : List Value} {widths : List Width} (many : 2 ≤ widths.length)
    (each : ∀ width ∈ widths, width.Ordered) (operands : List.Forall₂ ValueFills values widths)
    (room : Width.Along .divide Width.LeavesPlaces widths)
    (nonzero : ∀ divisor ∈ values.tail, divisor.toRat ≠ 0) :
    ∃ dividend divisors start result, values = dividend :: divisors ∧
      decimalOperand dividend = .ok start ∧
      DivisionRun start divisors (Expr.stepsOf .divide widths) result ∧
      result.Fills (Expr.lastWidth (Expr.stepsOf .divide widths)) ∧
      onDecimals .divide (Expr.stepsOf .divide widths) values =
        .ok (.decimal result.unscaled result.scale) := by
  cases operands with
  | nil => cases many
  | @cons dividend width divisors widths first others =>
    obtain ⟨start, taken, startFills⟩ := first
    rw [List.forall_mem_cons] at each
    obtain ⟨result, run, resultFills⟩ :=
      divisionRun_of_fills startFills each.1 others each.2 room nonzero
    rw [← Expr.lastWidth_stepsOf .divide many] at resultFills
    exact ⟨dividend, divisors, start, result, rfl, taken, run, resultFills,
      onDecimals_of_fold taken run.fold resultFills⟩

end Arithmetic

namespace Expr

/-- **The width rule keeps divisions from overflowing.**  Take a decimal division over two or more
operands whose scales are within their digits, and values that have exactly the scales of the operands and
no more digits than those allow, the divisors not zero.  If the places of the quotient are not negative at
any step, the node has a value at its scale.  Every partial quotient on the way is computed without
overflow, has no more digits than are allowed and is the rational quotient, rounded at the scale of its
step. -/
theorem decimal_division_rounded {operands : List Expr} {values : List Value}
    {precision scale : Option Nat} (many : 2 ≤ operands.length)
    (typed : (arithmetic .divide operands).type? = some (.decimal precision scale))
    (ordered : ∀ operand ∈ operands, operand.width.Ordered)
    (fills : List.Forall₂ Arithmetic.ValueFills values (operands.map width))
    (room : Width.Along .divide Width.LeavesPlaces (operands.map width))
    (nonzero : ∀ divisor ∈ values.tail, divisor.toRat ≠ 0) :
    ∃ dividend divisors start result digits, values = dividend :: divisors ∧
      Arithmetic.decimalOperand dividend = .ok start ∧
      Arithmetic.DivisionRun start divisors (stepWidths .divide operands) result ∧
      (arithmetic .divide operands).width = Width.fixed digits result.scale ∧
      Yields (arithmetic .divide operands) values (.decimal result.unscaled result.scale) := by
  have present := Arithmetic.any_isNull_of_exact (Arithmetic.isExact_of_fills fills)
  have many : 2 ≤ (operands.map width).length := (List.length_map width).symm ▸ many
  have each : ∀ limit ∈ operands.map width, limit.Ordered := List.forall_mem_map.mpr ordered
  rw [width_arithmetic, stepWidths_eq_stepsOf]
  obtain ⟨dividend, divisors, start, result, values_eq, taken, run, ⟨digits, limit, _⟩, answer⟩ :=
    Arithmetic.onDecimals_divides many each fills room nonzero
  rw [← stepWidths_eq_stepsOf] at answer
  exact ⟨dividend, divisors, start, result, digits, values_eq, taken, run, limit,
    yields_of_onDecimals typed present answer⟩

/-- The numbers 7.5, 3 and -0.07. -/
def chainedOperands : List Expr :=
  [decimalLiteral ⟨75, by decide, by decide⟩ 2 1,
    literal (.integer ⟨3, by decide, by decide⟩) (some .integer),
    decimalLiteral ⟨-7, by decide, by decide⟩ 2 2]

/-- The values of those literals. -/
def chainedValues : List Value :=
  [.decimal ⟨75, by decide, by decide⟩ 1, .integer ⟨3, by decide, by decide⟩,
    .decimal ⟨-7, by decide, by decide⟩ 2]

theorem ordered_chained : ∀ operand ∈ chainedOperands, operand.width.Ordered :=
  List.forall_mem_cons.mpr ⟨Width.ordered_fixed (by decide) (by decide),
    List.forall_mem_cons.mpr ⟨Width.ordered_fixed (by decide) (by decide),
      List.forall_mem_singleton.mpr (Width.ordered_fixed (by decide) (by decide))⟩⟩

theorem fills_chained :
    List.Forall₂ Arithmetic.ValueFills chainedValues (chainedOperands.map width) :=
  .cons (fills_decimalLiteral 1 (by decide) (by decide))
    (.cons (fills_integerLiteral (by decide))
      (.cons (fills_decimalLiteral 2 (by decide) (by decide)) .nil))

theorem leavesPlaces_chained :
    Width.Along .divide Width.LeavesPlaces (chainedOperands.map width) :=
  ⟨Width.leavesPlaces_fixed (by decide), Width.leavesPlaces_fixed (by decide), trivial⟩

theorem nonzero_chained : ∀ divisor ∈ chainedValues.tail, divisor.toRat ≠ 0 :=
  List.forall_mem_cons.mpr ⟨mt Decimal.toRat_eq_zero.mp (by decide),
    List.forall_mem_singleton.mpr (mt Decimal.toRat_eq_zero.mp (by decide))⟩

theorem decimal_division_rounded_chained :
    (∀ operand ∈ chainedOperands, operand.width.Ordered) ∧
      List.Forall₂ Arithmetic.ValueFills chainedValues (chainedOperands.map width) ∧
      Width.Along .divide Width.LeavesPlaces (chainedOperands.map width) ∧
      (∀ divisor ∈ chainedValues.tail, divisor.toRat ≠ 0) ∧
      ∃ dividend divisors start result digits, chainedValues = dividend :: divisors ∧
        Arithmetic.decimalOperand dividend = .ok start ∧
        Arithmetic.DivisionRun start divisors (stepWidths .divide chainedOperands) result ∧
        (arithmetic .divide chainedOperands).width = Width.fixed digits result.scale ∧
        Yields (arithmetic .divide chainedOperands) chainedValues
          (.decimal result.unscaled result.scale) := by
  refine ⟨ordered_chained, fills_chained, leavesPlaces_chained, nonzero_chained, ?_⟩
  exact decimal_division_rounded (by decide) rfl ordered_chained fills_chained leavesPlaces_chained
    nonzero_chained

end Expr

end WideRow
