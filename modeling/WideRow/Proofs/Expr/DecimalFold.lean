import WideRow.Proofs.Expr.DecimalRounding
import WideRow.Proofs.Expr.Width

/-!
# Folds of decimals

A decimal fills a width if it has exactly the scale of the width and no more digits than the width
allows.  Where the rule for the widths of sums and products is not cut, a step on decimals that fill
their widths is exact and its result fills the width of the step.

* `Arithmetic.foldDecimal_exact`: the invariant along the fold.
* `Expr.decimal_fold_exact`: the result for a node.
-/

namespace WideRow

open Fallible

/-! ### Widths along a fold -/

namespace Width

/-- What holds of the width that has been folded so far and that of the next operand, at every step. -/
def EveryStep (op : ArithmeticOp) (holds : Width → Width → Prop) : Width → List Width → Prop
  | _, [] => True
  | folded, next :: rest => holds folded next ∧ EveryStep op holds (combine op folded next) rest

/-- What holds at every step of a fold over operands of the given widths. -/
def Along (op : ArithmeticOp) (holds : Width → Width → Prop) : List Width → Prop
  | [] => True
  | first :: rest => EveryStep op holds first rest

/-- The rule gives no more digits and no larger scale than are allowed. -/
def Unclamped (op : ArithmeticOp) (folded next : Width) : Prop :=
  ∀ ld ls rd rs, folded = fixed ld ls → next = fixed rd rs →
    (rule op ld ls rd rs).1 ≤ Decimal.maxDigits ∧ (rule op ld ls rd rs).2 ≤ Decimal.maxDigits

theorem unclamped_fixed {op : ArithmeticOp} {ld ls rd rs : Nat}
    (digits : (rule op ld ls rd rs).1 ≤ Decimal.maxDigits)
    (scale : (rule op ld ls rd rs).2 ≤ Decimal.maxDigits) :
    Unclamped op (fixed ld ls) (fixed rd rs) := by
  intro _ _ _ _ left right
  cases left
  cases right
  exact ⟨digits, scale⟩

theorem clamp_of_le {n : Int} (most : n ≤ Decimal.maxDigits) : clamp n = n.toNat := by
  rw [clamp]
  omega

theorem combine_of_unclamped {op : ArithmeticOp} {ld ls rd rs : Nat}
    (room : Unclamped op (fixed ld ls) (fixed rd rs)) :
    combine op (fixed ld ls) (fixed rd rs) =
      fixed (rule op ld ls rd rs).1.toNat (rule op ld ls rd rs).2.toNat := by
  obtain ⟨digits, scale⟩ := room ld ls rd rs rfl rfl
  rw [← clamp_of_le digits, ← clamp_of_le scale]
  rfl

end Width

theorem Expr.lastWidth_stepsOf (op : ArithmeticOp) {first : Width} {rest : List Width}
    (many : 2 ≤ (first :: rest).length) :
    lastWidth (stepsOf op (first :: rest)) = rest.foldl (Width.combine op) first := by
  cases rest with
  | nil => exact absurd many (Nat.not_succ_le_self 1)
  | cons next rest => exact lastWidth_steps op first next rest

namespace Arithmetic

/-! ### Decimals that fill their widths -/

/-- The decimal has exactly the scale of the width and no more digits than it allows. -/
def Partial.Fills (held : Partial) (width : Width) : Prop :=
  ∃ digits, width = Width.fixed digits held.scale ∧ Decimal.digits held.unscaled ≤ digits

/-- The value is an exact number that fills the width. -/
def ValueFills (value : Value) (width : Width) : Prop :=
  ∃ held, decimalOperand value = .ok held ∧ held.Fills width

/-- What fills the width of the node is the result as it is. -/
theorem fitToWidth_of_fills {held : Partial} {width : Width} (fills : held.Fills width) :
    fitToWidth width held = .ok held := by
  obtain ⟨digits, same, few⟩ := fills
  have checked : Decimal.checkDigits held.unscaled (some digits) = .ok () := if_neg (Nat.not_lt.mpr few)
  have rescaled := Decimal.rescale?_self held.unscaled held.scale
  rw [same]
  refine bind_eq_ok.mpr ⟨held.unscaled, orOverflow_eq_ok.mpr rescaled, ?_⟩
  exact bind_eq_ok.mpr ⟨(), ofNumeric_eq_ok.mpr checked, rfl⟩

/-! ### Steps -/

/-- There is room for decimals at their common scale, and for what they are combined to. -/
theorem combineAligned_fits {combine : Int → Int → Int}
    (carries : ∀ {m n : Int} {j k : Nat}, m.natAbs < Decimal.tenTo j → n.natAbs < Decimal.tenTo k →
      (combine m n).natAbs < Decimal.tenTo (max j k + 1))
    {folded next : Partial} {ld rd : Nat} (left : Decimal.digits folded.unscaled ≤ ld)
    (right : Decimal.digits next.unscaled ≤ rd)
    (room : (Width.sumRule ld folded.scale rd next.scale).1 ≤ Decimal.maxDigits) :
    ∃ result : Unscaled,
      combineAligned combine folded next = .ok ⟨result, max folded.scale next.scale⟩ ∧
      Decimal.digits result ≤ (Width.sumRule ld folded.scale rd next.scale).1.toNat := by
  obtain ⟨_, leftSmall⟩ := Decimal.digits_le_iff.mp left
  obtain ⟨_, rightSmall⟩ := Decimal.digits_le_iff.mp right
  generalize digits_eq : (Width.sumRule ld folded.scale rd next.scale).1 = digits at room ⊢
  simp only [Width.sumRule] at digits_eq
  generalize scale_eq : max folded.scale next.scale = scale
  -- each operand, once aligned, is a digit short of what the rule allows
  have leftLe : folded.scale ≤ scale := by omega
  have rightLe : next.scale ≤ scale := by omega
  have carry : max (ld + (scale - folded.scale)) (rd + (scale - next.scale)) + 1 ≤ digits.toNat := by
    omega
  obtain ⟨a, leftAligned, leftSmall, _⟩ :=
    Decimal.rescale?_of_natAbs_lt leftLe (by omega) leftSmall
  obtain ⟨b, rightAligned, rightSmall, _⟩ :=
    Decimal.rescale?_of_natAbs_lt rightLe (by omega) rightSmall
  have small := Nat.lt_of_lt_of_le (carries leftSmall rightSmall) (Decimal.tenTo_le_tenTo carry)
  obtain ⟨result, total, same⟩ := Decimal.ofInt?_of_natAbs_lt (by omega) small
  refine ⟨result, ?_, ?_⟩
  · rw [combineAligned, scale_eq, leftAligned, rightAligned]
    refine bind_eq_ok.mpr ⟨a, rfl, bind_eq_ok.mpr ⟨b, rfl, bind_eq_ok.mpr ⟨result, ?_, rfl⟩⟩⟩
    exact orOverflow_eq_ok.mpr total
  · exact Decimal.digits_le_iff.mpr ⟨by omega, same ▸ small⟩

theorem multiplyExact_fits {folded next : Partial} {ld rd : Nat}
    (left : Decimal.digits folded.unscaled ≤ ld) (right : Decimal.digits next.unscaled ≤ rd)
    (digits : ld + rd ≤ Decimal.maxDigits) (scale : folded.scale + next.scale ≤ Decimal.maxDigits) :
    ∃ result : Unscaled, multiplyExact folded next = .ok ⟨result, folded.scale + next.scale⟩ ∧
      Decimal.digits result ≤ ld + rd := by
  obtain ⟨_, leftSmall⟩ := Decimal.digits_le_iff.mp left
  obtain ⟨_, rightSmall⟩ := Decimal.digits_le_iff.mp right
  have small := Width.natAbs_product_lt leftSmall rightSmall
  obtain ⟨result, product, same⟩ := Decimal.ofInt?_of_natAbs_lt digits small
  refine ⟨result, ?_, ?_⟩
  · refine bind_eq_ok.mpr ⟨result, orOverflow_eq_ok.mpr product, ?_⟩
    exact if_neg (Nat.not_lt.mpr scale)
  · exact Decimal.digits_le_iff.mpr ⟨by omega, same ▸ small⟩

/-- One step of a sum, difference or product whose width is not cut: the result is exact and fills the
width of the step. -/
theorem decimalStep_exact {op : ArithmeticOp} (closed : op ≠ .divide) {folded next : Partial}
    {a b : Width} (left : folded.Fills a) (right : next.Fills b) (room : Width.Unclamped op a b)
    (step : Width) :
    ∃ result, decimalStep op step folded next = .ok result ∧
      result.Fills (Width.combine op a b) ∧ result.toRat = op.onRat folded.toRat next.toRat := by
  obtain ⟨ld, rfl, leftFew⟩ := left
  obtain ⟨rd, rfl, rightFew⟩ := right
  obtain ⟨digits, scale⟩ := room ld folded.scale rd next.scale rfl rfl
  have few : op = .multiply → folded.scale + next.scale ≤ Decimal.maxDigits := by
    rintro rfl
    exact Int.ofNat_le.mp scale
  have sound := exact_decimalStep closed few step
  rw [Width.combine_of_unclamped room]
  have common : (Width.sumRule ld folded.scale rd next.scale).2.toNat =
      max folded.scale next.scale := by
    simp only [Width.sumRule]
    omega
  cases op with
  | add =>
    obtain ⟨result, answer, small⟩ := combineAligned_fits
      (fun left right => (Width.natAbs_sum_lt left right).1) leftFew rightFew digits
    exact ⟨_, answer, ⟨_, congrArg (Width.fixed _) common, small⟩, (sound.of_ok answer).toRat⟩
  | subtract =>
    obtain ⟨result, answer, small⟩ := combineAligned_fits
      (fun left right => (Width.natAbs_sum_lt left right).2) leftFew rightFew digits
    exact ⟨_, answer, ⟨_, congrArg (Width.fixed _) common, small⟩, (sound.of_ok answer).toRat⟩
  | multiply =>
    obtain ⟨result, answer, small⟩ := multiplyExact_fits leftFew rightFew
      (Int.ofNat_le.mp digits) (few rfl)
    exact ⟨_, answer, ⟨_, rfl, small⟩, (sound.of_ok answer).toRat⟩
  | divide => exact absurd rfl closed

/-! ### Folds -/

/-- A fold of sums, differences or products whose widths are not cut is exact, and its result fills the
width of the last step. -/
theorem foldDecimal_exact {op : ArithmeticOp} (closed : op ≠ .divide) {folded : Partial}
    {start : Width} {values : List Value} {widths : List Width} (fills : folded.Fills start)
    (operands : List.Forall₂ ValueFills values widths)
    (room : Width.EveryStep op (Width.Unclamped op) start widths) :
    ∃ result, foldDecimal op folded values (Width.steps op start widths) = .ok result ∧
      result.Fills (widths.foldl (Width.combine op) start) ∧
      result.toRat = op.exact folded.toRat (values.map Value.toRat) := by
  induction operands generalizing folded start with
  | nil => exact ⟨folded, rfl, fills, (op.exact_nil _).symm⟩
  | @cons value width values widths operand _ ih =>
    obtain ⟨next, taken, nextFills⟩ := operand
    obtain ⟨now, later⟩ := room
    obtain ⟨middle, step, middleFills, stepExact⟩ :=
      decimalStep_exact closed fills nextFills now (Width.combine op start width)
    obtain ⟨result, answer, resultFills, restExact⟩ := ih middleFills later
    refine ⟨result, ?_, resultFills, ?_⟩
    · exact bind_eq_ok.mpr ⟨next, taken, bind_eq_ok.mpr ⟨middle, step, answer⟩⟩
    · rw [restExact, stepExact, List.map_cons, toRat_of_decimalOperand taken, ArithmeticOp.exact_cons]

/-- The value of a fold that fills the width of its last step. -/
theorem onDecimals_of_fold {op : ArithmeticOp} {steps : List Width} {first : Value}
    {rest : List Value} {start folded : Partial} (taken : decimalOperand first = .ok start)
    (run : foldDecimal op start rest steps = .ok folded)
    (fills : folded.Fills (Expr.lastWidth steps)) :
    onDecimals op steps (first :: rest) = .ok (.decimal folded.unscaled folded.scale) :=
  bind_eq_ok.mpr ⟨start, taken, bind_eq_ok.mpr ⟨folded, run,
    bind_eq_ok.mpr ⟨folded, fitToWidth_of_fills fills, rfl⟩⟩⟩

theorem isExact_of_fills {values : List Value} {widths : List Width}
    (operands : List.Forall₂ ValueFills values widths) : ∀ value ∈ values, value.IsExact := by
  induction operands with
  | nil => exact List.forall_mem_nil _
  | cons fills _ ih =>
    obtain ⟨held, taken, _⟩ := fills
    exact List.forall_mem_cons.mpr ⟨⟨_, _, decimalOperand_eq_ok.mp taken⟩, ih⟩

theorem onDecimals_exact {op : ArithmeticOp} (closed : op ≠ .divide) {values : List Value}
    {widths : List Width} (many : 2 ≤ widths.length) (operands : List.Forall₂ ValueFills values widths)
    (room : Width.Along op (Width.Unclamped op) widths) :
    ∃ result : Partial, onDecimals op (Expr.stepsOf op widths) values =
        .ok (.decimal result.unscaled result.scale) ∧
      result.Fills (Expr.lastWidth (Expr.stepsOf op widths)) ∧
      result.toRat = op.total (values.map Value.toRat) := by
  cases operands with
  | nil => cases many
  | @cons value width values widths first others =>
    obtain ⟨start, taken, startFills⟩ := first
    obtain ⟨result, run, resultFills, exact_⟩ := foldDecimal_exact closed startFills others room
    rw [← Expr.lastWidth_stepsOf op many] at resultFills
    refine ⟨result, onDecimals_of_fold taken run resultFills, resultFills, ?_⟩
    rw [exact_, List.map_cons, toRat_of_decimalOperand taken]
    rfl

end Arithmetic

namespace Expr

/-! ### Nodes -/

/-- The node has the value when its operands have theirs: applied to them, and evaluated on every row on
which the operands have those values. -/
def Yields (node : Expr) (values : List Value) (value : Value) : Prop :=
  (∀ row, apply row node values = .ok value) ∧
    ∀ row, evaluateAll row node.children = .ok values → node.evaluate row = .ok value

theorem yields_of_onDecimals {op : ArithmeticOp} {operands : List Expr} {values : List Value}
    {precision scale : Option Nat}
    (typed : (arithmetic op operands).type? = some (.decimal precision scale))
    (present : values.any Value.isNull = false) {value : Value}
    (answer : Arithmetic.onDecimals op (stepWidths op operands) values = .ok value) :
    Yields (arithmetic op operands) values value := by
  have settles := settles_arithmetic typed values
  rw [Arithmetic.evaluate_decimal present, answer] at settles
  exact settles

/-- **Decimal sums, differences and products do not overflow early.**  Take a decimal node over two or more
operands and values that have exactly the scales of the operands and no more digits than those allow.
If the rule for the width is not cut at any step, the node has a value, which is the exact sum, difference
or product, at the scale of the node and within its digits. -/
theorem decimal_fold_exact {op : ArithmeticOp} {operands : List Expr} {values : List Value}
    {precision scale : Option Nat} (closed : op ≠ .divide) (many : 2 ≤ operands.length)
    (typed : (arithmetic op operands).type? = some (.decimal precision scale))
    (fills : List.Forall₂ Arithmetic.ValueFills values (operands.map width))
    (room : Width.Along op (Width.Unclamped op) (operands.map width)) :
    ∃ unscaled digits place, (arithmetic op operands).width = Width.fixed digits place ∧
      Yields (arithmetic op operands) values (.decimal unscaled place) ∧
      Decimal.digits unscaled ≤ digits ∧
      Decimal.toRat unscaled place = op.total (values.map Value.toRat) := by
  have present := Arithmetic.any_isNull_of_exact (Arithmetic.isExact_of_fills fills)
  rw [width_arithmetic]
  have many : 2 ≤ (operands.map width).length := (List.length_map width).symm ▸ many
  obtain ⟨result, answer, ⟨digits, limit, few⟩, exact_⟩ :=
    Arithmetic.onDecimals_exact closed many fills room
  rw [← stepWidths_eq_stepsOf] at answer limit
  exact ⟨result.unscaled, digits, result.scale, limit, yields_of_onDecimals typed present answer, few,
    exact_⟩

/-- A decimal literal of the given precision. -/
def decimalLiteral (unscaled : Unscaled) (precision scale : Nat) : Expr :=
  literal (.decimal unscaled scale) (some (.decimal (some precision) (some scale)))

theorem fills_decimalLiteral {unscaled : Unscaled} {precision : Nat} (scale : Nat)
    (positive : 0 < precision) (small : unscaled.val.natAbs < Decimal.tenTo precision) :
    Arithmetic.ValueFills (.decimal unscaled scale)
      (decimalLiteral unscaled precision scale).width :=
  ⟨⟨unscaled, scale⟩, rfl, precision, rfl, Decimal.digits_le_iff.mpr ⟨positive, small⟩⟩

theorem fills_integerLiteral {n : Signed 64} (small : n.val.natAbs < Decimal.tenTo 10) :
    Arithmetic.ValueFills (.integer n) (literal (.integer n) (some .integer)).width :=
  ⟨⟨n.widen, 0⟩, rfl, 10, rfl, Decimal.digits_le_iff.mpr ⟨by decide, small⟩⟩

/-- The numbers 0.00007, 1000000000 and -9.99; the type of the first has fewer digits than its scale. -/
def mixedOperands : List Expr :=
  [decimalLiteral ⟨7, by decide, by decide⟩ 1 5,
    literal (.integer ⟨1000000000, by decide, by decide⟩) (some .integer),
    decimalLiteral ⟨-999, by decide, by decide⟩ 3 2]

/-- The values of those literals. -/
def mixedValues : List Value :=
  [.decimal ⟨7, by decide, by decide⟩ 5, .integer ⟨1000000000, by decide, by decide⟩,
    .decimal ⟨-999, by decide, by decide⟩ 2]

theorem fills_mixed : List.Forall₂ Arithmetic.ValueFills mixedValues (mixedOperands.map width) :=
  .cons (fills_decimalLiteral 5 (by decide) (by decide))
    (.cons (fills_integerLiteral (by decide))
      (.cons (fills_decimalLiteral 2 (by decide) (by decide)) .nil))

theorem unclamped_mixed :
    Width.Along .subtract (Width.Unclamped .subtract) (mixedOperands.map width) :=
  ⟨Width.unclamped_fixed (by decide) (by decide), Width.unclamped_fixed (by decide) (by decide),
    trivial⟩

theorem decimal_fold_exact_mixed :
    List.Forall₂ Arithmetic.ValueFills mixedValues (mixedOperands.map width) ∧
      Width.Along .subtract (Width.Unclamped .subtract) (mixedOperands.map width) ∧
      ∃ unscaled digits place,
        (arithmetic .subtract mixedOperands).width = Width.fixed digits place ∧
        Yields (arithmetic .subtract mixedOperands) mixedValues (.decimal unscaled place) ∧
        Decimal.digits unscaled ≤ digits ∧
        Decimal.toRat unscaled place =
          ArithmeticOp.total .subtract (mixedValues.map Value.toRat) := by
  refine ⟨fills_mixed, unclamped_mixed, ?_⟩
  exact decimal_fold_exact nofun (by decide) rfl fills_mixed unclamped_mixed

end Expr

end WideRow
