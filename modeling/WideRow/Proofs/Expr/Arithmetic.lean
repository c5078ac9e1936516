import WideRow.Expr.Arithmetic
import WideRow.Proofs.Value.Typing

/-!
# Arithmetic on typed values

An arithmetic node folds its operator over its operands on integers, on doubles or on decimals.  Each
fold succeeds on values of its kind or ends in a fault of exact arithmetic: one lemma for taking an
operand, one for a step, and the induction over the operands.

`meets_evaluate` : the category that decides the type of a node is the one whose fold is taken, so the
result is of that type.
-/

namespace WideRow

open Fallible

namespace Arithmetic

theorem meets_integerOperand {value : Value} (integer : ∃ n, value = .integer n) :
    Meets (fun _ => True) IsNumeric (integerOperand value) := by
  obtain ⟨n, same⟩ := integer
  rw [same]
  exact trivial

theorem meets_integerStep (op : ArithmeticOp) (folded next : Signed 64) :
    Meets (fun _ => True) IsNumeric (integerStep op folded next) := by
  simp only [integerStep]
  split
  · exact ⟨.divisionByZero, rfl⟩
  · exact (meets_orOverflow _).mono (fun _ _ => trivial) fun _ numeric => numeric

theorem meets_foldInteger (op : ArithmeticOp) {operands : List Value} (folded : Signed 64)
    (integers : ∀ value ∈ operands, ∃ n, value = .integer n) :
    Meets (fun _ => True) IsNumeric (foldInteger op folded operands) := by
  induction operands generalizing folded with
  | nil => exact trivial
  | cons value rest ih =>
    refine (meets_integerOperand (integers value List.mem_cons_self)).bind fun next _ => ?_
    refine (meets_integerStep op folded next).bind fun folded _ => ?_
    exact ih folded fun other member => integers other (List.mem_cons_of_mem _ member)

theorem meets_onIntegers (op : ArithmeticOp) {operands : List Value}
    (integers : ∀ value ∈ operands, ∃ n, value = .integer n) :
    Meets (fun value => value = .null ∨ ∃ n, value = .integer n) IsNumeric
      (onIntegers op operands) := by
  cases operands with
  | nil => exact .inl rfl
  | cons first rest =>
    refine (meets_integerOperand (integers first List.mem_cons_self)).bind fun start _ => ?_
    have others : ∀ value ∈ rest, ∃ n, value = .integer n :=
      fun value member => integers value (List.mem_cons_of_mem _ member)
    exact (meets_foldInteger op start others).bind fun folded _ => .inr ⟨folded, rfl⟩

theorem meets_doubleOperand {value : Value} (numeric : ∃ x, value.toDouble? = some x) :
    Meets (fun _ => True) IsNumeric (doubleOperand value) := by
  obtain ⟨x, number⟩ := numeric
  rw [doubleOperand, number]
  exact trivial

theorem meets_doubleStep (op : ArithmeticOp) (folded next : Binary64) :
    Meets (fun _ => True) IsNumeric (doubleStep op folded next) := by
  cases op with
  | add => exact trivial
  | subtract => exact trivial
  | multiply => exact trivial
  | divide =>
    simp only [doubleStep]
    split
    · exact ⟨.divisionByZero, rfl⟩
    · exact trivial

theorem meets_foldDouble (op : ArithmeticOp) {operands : List Value} (folded : Binary64)
    (numeric : ∀ value ∈ operands, ∃ x, value.toDouble? = some x) :
    Meets (fun _ => True) IsNumeric (foldDouble op folded operands) := by
  induction operands generalizing folded with
  | nil => exact trivial
  | cons value rest ih =>
    refine (meets_doubleOperand (numeric value List.mem_cons_self)).bind fun next _ => ?_
    refine (meets_doubleStep op folded next).bind fun folded _ => ?_
    exact ih folded fun other member => numeric other (List.mem_cons_of_mem _ member)

theorem meets_onDoubles (op : ArithmeticOp) {operands : List Value}
    (numeric : ∀ value ∈ operands, ∃ x, value.toDouble? = some x) :
    Meets (fun value => value = .null ∨ ∃ x, value = .float x) IsNumeric
      (onDoubles op operands) := by
  cases operands with
  | nil => exact .inl rfl
  | cons first rest =>
    refine (meets_doubleOperand (numeric first List.mem_cons_self)).bind fun start _ => ?_
    have others : ∀ value ∈ rest, ∃ x, value.toDouble? = some x :=
      fun value member => numeric value (List.mem_cons_of_mem _ member)
    exact (meets_foldDouble op start others).bind fun folded _ => .inr ⟨folded, rfl⟩

/-! Decimals on the way through a fold have scales of at most a byte. -/

theorem meets_decimalOperand {value : Value}
    (exact_ : ∃ unscaled scale, value.fixedPoint? = some (unscaled, scale) ∧ scale < 256) :
    Meets (fun held => held.scale < 256) IsNumeric (decimalOperand value) := by
  obtain ⟨unscaled, scale, fixed, small⟩ := exact_
  rw [decimalOperand, fixed]
  exact small

theorem meets_combineAligned (combine : Int → Int → Int) {folded next : Partial}
    (left : folded.scale < 256) (right : next.scale < 256) :
    Meets (fun held => held.scale < 256) IsNumeric (combineAligned combine folded next) := by
  refine (meets_orOverflow _).bind fun _ _ => ?_
  refine (meets_orOverflow _).bind fun _ _ => ?_
  refine (meets_orOverflow _).bind fun _ _ => ?_
  exact Nat.max_lt.mpr ⟨left, right⟩

theorem meets_multiplyExact (folded next : Partial) :
    Meets (fun held => held.scale < 256) IsNumeric (multiplyExact folded next) := by
  refine (meets_orOverflow _).bind fun product _ => ?_
  simp only
  split
  · refine (meets_orOverflow _).bind fun _ _ => ?_
    show Decimal.maxDigits < 256
    decide
  · rename_i small
    exact Nat.lt_of_le_of_lt (Nat.le_of_not_lt small) (by decide)

theorem meets_divideRounded {step : Width} (small : ∀ scale, step.scale = some scale → scale < 256)
    (folded next : Partial) :
    Meets (fun held => held.scale < 256) IsNumeric (divideRounded step folded next) := by
  refine (meets_ofNumeric _).bind fun _ _ => ?_
  show quotientScale step folded next < 256
  unfold quotientScale
  cases open_ : step.scale with
  | some scale => exact small scale open_
  | none => exact Nat.lt_of_le_of_lt (Nat.min_le_right _ _) (by decide)

theorem meets_decimalStep (op : ArithmeticOp) {step : Width}
    (small : ∀ scale, step.scale = some scale → scale < 256) {folded next : Partial}
    (left : folded.scale < 256) (right : next.scale < 256) :
    Meets (fun held => held.scale < 256) IsNumeric (decimalStep op step folded next) := by
  cases op with
  | add => exact meets_combineAligned _ left right
  | subtract => exact meets_combineAligned _ left right
  | multiply => exact meets_multiplyExact folded next
  | divide => exact meets_divideRounded small folded next

/-- The widths that a fold is given leave its scales within a byte. -/
def SmallScales (steps : List Width) : Prop :=
  ∀ step ∈ steps, ∀ scale, step.scale = some scale → scale < 256

theorem meets_foldDecimal (op : ArithmeticOp) {operands : List Value} {steps : List Width}
    (small : SmallScales steps) {folded : Partial} (start : folded.scale < 256)
    (exact_ : ∀ value ∈ operands, ∃ unscaled scale,
      value.fixedPoint? = some (unscaled, scale) ∧ scale < 256) :
    Meets (fun held => held.scale < 256) IsNumeric (foldDecimal op folded operands steps) := by
  induction operands generalizing folded steps with
  | nil => exact start
  | cons value rest ih =>
    cases steps with
    | nil => exact start
    | cons step steps =>
      refine (meets_decimalOperand (exact_ value List.mem_cons_self)).bind fun next right => ?_
      have first := meets_decimalStep op (small step List.mem_cons_self) start right
      refine first.bind fun folded held => ?_
      exact ih (fun other member => small other (List.mem_cons_of_mem _ member)) held
        fun other member => exact_ other (List.mem_cons_of_mem _ member)

theorem meets_fitToWidth {width : Width} (small : ∀ scale, width.scale = some scale → scale < 256)
    {folded : Partial} (held : folded.scale < 256) :
    Meets (fun result => result.scale < 256) IsNumeric (fitToWidth width folded) := by
  unfold fitToWidth
  cases open_ : width.scale with
  | none => exact held
  | some scale =>
    refine (meets_orOverflow _).bind fun _ _ => ?_
    refine (meets_ofNumeric _).bind fun _ _ => ?_
    exact small scale open_

theorem meets_onDecimals (op : ArithmeticOp) {operands : List Value} {steps : List Width}
    (small : SmallScales steps)
    (exact_ : ∀ value ∈ operands, ∃ unscaled scale,
      value.fixedPoint? = some (unscaled, scale) ∧ scale < 256) :
    Meets (fun value => value = .null ∨
        ∃ unscaled scale, value = .decimal unscaled scale ∧ scale < 256) IsNumeric
      (onDecimals op steps operands) := by
  cases operands with
  | nil => exact .inl rfl
  | cons first rest =>
    refine (meets_decimalOperand (exact_ first List.mem_cons_self)).bind fun start held => ?_
    have others : ∀ value ∈ rest, ∃ unscaled scale,
        value.fixedPoint? = some (unscaled, scale) ∧ scale < 256 :=
      fun value member => exact_ value (List.mem_cons_of_mem _ member)
    refine (meets_foldDecimal op small held others).bind fun folded held => ?_
    have last : ∀ scale, (Expr.lastWidth steps).scale = some scale → scale < 256 := by
      unfold Expr.lastWidth
      cases final : steps.getLast? with
      | none => exact nofun
      | some width => exact small width (List.mem_of_getLast? final)
    exact (meets_fitToWidth last held).bind fun result held => .inr ⟨_, _, rfl, held⟩

theorem toDouble?_of_hasType {value : Value} {type : DataType} (typed : value.HasType type)
    (numeric : type.isNumeric = true) : ∃ x, value.toDouble? = some x := by
  cases typed with
  | integer n => exact ⟨_, rfl⟩
  | bigInt n => exact ⟨_, rfl⟩
  | decimal unscaled small precision declared => exact ⟨_, rfl⟩
  | double x => exact ⟨_, rfl⟩
  | varchar s => cases numeric
  | boolean b => cases numeric

theorem fixedPoint?_of_hasType {value : Value} {type : DataType} (typed : value.HasType type)
    (numeric : type.isNumeric = true) (notDouble : type ≠ .double) :
    ∃ unscaled scale, value.fixedPoint? = some (unscaled, scale) ∧ scale < 256 := by
  cases typed with
  | integer n => exact ⟨_, _, rfl, by decide⟩
  | bigInt n => exact ⟨_, _, rfl, by decide⟩
  | decimal unscaled small precision declared => exact ⟨_, _, rfl, small⟩
  | double x => exact absurd rfl notDouble
  | varchar s => cases numeric
  | boolean b => cases numeric

theorem integer_of_hasType {value : Value} {type : DataType} (typed : value.HasType type)
    (numeric : type.isNumeric = true) (notDouble : type ≠ .double)
    (notDecimal : ∀ precision scale, type ≠ .decimal precision scale) :
    ∃ n, value = .integer n := by
  cases typed with
  | integer n => exact ⟨n, rfl⟩
  | bigInt n => exact ⟨n, rfl⟩
  | decimal unscaled small precision declared => exact absurd rfl (notDecimal _ _)
  | double x => exact absurd rfl notDouble
  | varchar s => cases numeric
  | boolean b => cases numeric

/-- Values for operands of numeric types. -/
def NumericFor (known : List Expr.Signature) (values : List Value) : Prop :=
  ∀ value ∈ values, ∃ operand ∈ known, value.Inhabits operand.type ∧
    ∀ type, operand.type = some type → type.isNumeric = true

theorem NumericFor.hasType {known : List Expr.Signature} {values : List Value}
    (numeric : NumericFor known values) (present : values.any Value.isNull = false) :
    ∀ value ∈ values, ∃ operand ∈ known, ∃ type, operand.type = some type ∧
      value.HasType type ∧ type.isNumeric = true := by
  intro value member
  obtain ⟨operand, among, inhabits, number⟩ := numeric value member
  rw [List.any_eq_false] at present
  obtain ⟨type, declared, typed⟩ :=
    inhabits.hasType (Bool.eq_false_iff.mpr (present value member))
  exact ⟨operand, among, type, declared, typed, number type declared⟩

theorem not_double_of_any {known : List Expr.Signature}
    (doubles : ¬ known.any (fun operand => operand.type == some .double) = true) :
    ∀ operand ∈ known, ∀ type, operand.type = some type → type ≠ .double := by
  intro operand member type declared same
  rw [Bool.not_eq_true, List.any_eq_false] at doubles
  refine doubles operand member ?_
  rw [declared, same]
  exact beq_self_eq_true _

theorem not_decimal_of_any {known : List Expr.Signature}
    (decimals : ¬ known.any Expr.Signature.isDecimal = true) :
    ∀ operand ∈ known, ∀ type, operand.type = some type →
      ∀ precision scale, type ≠ .decimal precision scale := by
  intro operand member type declared precision scale same
  rw [Bool.not_eq_true, List.any_eq_false] at decimals
  refine decimals operand member ?_
  rw [Expr.Signature.isDecimal, declared, same]

/-! ### The node -/

theorem evaluate_of_missing {op : ArithmeticOp} {type : DataType} {steps : List Width}
    {values : List Value} (missing : values.any Value.isNull = true) :
    evaluate op type steps values = .ok .null := if_pos missing

theorem evaluate_double {op : ArithmeticOp} {steps : List Width} {values : List Value}
    (present : values.any Value.isNull = false) :
    evaluate op .double steps values = onDoubles op values :=
  if_neg (Bool.eq_false_iff.mp present)

theorem evaluate_decimal {op : ArithmeticOp} {precision scale : Option Nat} {steps : List Width}
    {values : List Value} (present : values.any Value.isNull = false) :
    evaluate op (.decimal precision scale) steps values = onDecimals op steps values :=
  if_neg (Bool.eq_false_iff.mp present)

theorem evaluate_bigInt {op : ArithmeticOp} {steps : List Width} {values : List Value}
    (present : values.any Value.isNull = false) :
    evaluate op .bigInt steps values = onIntegers op values :=
  if_neg (Bool.eq_false_iff.mp present)

/-- Arithmetic on values of numeric types gives a value of the type of the node, or a missing one, or
fails as exact arithmetic does. -/
theorem meets_evaluate (op : ArithmeticOp) {known : List Expr.Signature} (width : Width)
    {steps : List Width} (small : SmallScales steps) {values : List Value}
    (numeric : NumericFor known values) :
    Meets (fun value => value.Inhabits (some (Expr.arithmeticType known width))) IsNumeric
      (evaluate op (Expr.arithmeticType known width) steps values) := by
  by_cases missing : values.any Value.isNull = true
  · rw [evaluate_of_missing missing]
    exact .inl rfl
  have present := Bool.eq_false_iff.mpr missing
  have typed := numeric.hasType present
  -- the widest category among the operands decides the fold, as it decides the type
  unfold Expr.arithmeticType
  by_cases doubles : known.any (fun operand => operand.type == some .double) = true
  · rw [if_pos doubles, evaluate_double present]
    have numbers : ∀ value ∈ values, ∃ x, value.toDouble? = some x := by
      intro value member
      obtain ⟨_, _, _, _, typed, number⟩ := typed value member
      exact toDouble?_of_hasType typed number
    refine (meets_onDoubles op numbers).mono ?_ fun _ fault => fault
    intro value result
    rcases result with none_ | ⟨x, same⟩
    · exact .inl none_
    · exact .inr ⟨_, rfl, same ▸ .double x⟩
  have notDouble := not_double_of_any doubles
  rw [if_neg doubles]
  by_cases decimals : known.any Expr.Signature.isDecimal = true
  · rw [if_pos decimals, evaluate_decimal present]
    have numbers : ∀ value ∈ values, ∃ unscaled scale,
        value.fixedPoint? = some (unscaled, scale) ∧ scale < 256 := by
      intro value member
      obtain ⟨operand, among, type, declared, typed, number⟩ := typed value member
      exact fixedPoint?_of_hasType typed number (notDouble operand among type declared)
    refine (meets_onDecimals op small numbers).mono ?_ fun _ fault => fault
    intro value result
    rcases result with none_ | ⟨unscaled, scale, same, held⟩
    · exact .inl none_
    · exact .inr ⟨_, rfl, same ▸ .decimal unscaled held _ _⟩
  have notDecimal := not_decimal_of_any decimals
  rw [if_neg decimals, evaluate_bigInt present]
  have integers : ∀ value ∈ values, ∃ n, value = .integer n := by
    intro value member
    obtain ⟨operand, among, type, declared, typed, number⟩ := typed value member
    exact integer_of_hasType typed number (notDouble operand among type declared)
      (notDecimal operand among type declared)
  refine (meets_onIntegers op integers).mono ?_ fun _ fault => fault
  intro value result
  rcases result with none_ | ⟨n, same⟩
  · exact .inl none_
  · exact .inr ⟨_, rfl, same ▸ .bigInt n⟩

end Arithmetic

end WideRow
