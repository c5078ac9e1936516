import WideRow.Expr.Arithmetic
import WideRow.Proofs.Number.Decimal

/-!
# Widths hold integers

A width holds an integer if the integer, written at the scale of the width, has no more digits than the
width allows.  The rules for widths leave room for every sum, product and quotient, except that a width
is cut to `Decimal.maxDigits`.  A cut width still holds what is left of a 64-bit integer if its scale
leaves the nineteen digits that such an integer can have (`KeepsWhole`).

* `scaleWithin_combine`, `ordered_combine`: a step keeps scales within their digits.
* `holds_combine`: one step of a fold.
-/

namespace WideRow

namespace Width

theorem combine_eq_fixed {op : ArithmeticOp} {a b : Width} {digits scale : Nat}
    (combined : combine op a b = fixed digits scale) :
    ∃ ld ls rd rs, a = fixed ld ls ∧ b = fixed rd rs ∧
      digits = clamp (rule op ld ls rd rs).1 ∧ scale = clamp (rule op ld ls rd rs).2 := by
  obtain ⟨ld, ls⟩ := a
  obtain ⟨rd, rs⟩ := b
  cases ld with
  | none => cases combined
  | some ld =>
    cases ls with
    | none => cases combined
    | some ls =>
      cases rd with
      | none => cases combined
      | some rd =>
        cases rs with
        | none => cases combined
        | some rs =>
          injection combined with digitsSame scaleSame
          injection digitsSame with digitsSame
          injection scaleSame with scaleSame
          exact ⟨ld, ls, rd, rs, rfl, rfl, digitsSame.symm, scaleSame.symm⟩

/-- The scale of a width is within its digits. -/
def ScaleWithin (width : Width) : Prop :=
  ∀ digits scale, width = fixed digits scale → scale ≤ digits

theorem scaleWithin_fixed {digits scale : Nat} :
    (fixed digits scale).ScaleWithin ↔ scale ≤ digits := by
  refine ⟨fun within => within digits scale rfl, fun within _ _ same => ?_⟩
  cases same
  exact within

/-- The scale of a width is within its digits, and those within what is allowed. -/
def Ordered (width : Width) : Prop :=
  ∀ digits scale, width = fixed digits scale → scale ≤ digits ∧ digits ≤ Decimal.maxDigits

theorem Ordered.scaleWithin {width : Width} (ordered : width.Ordered) : width.ScaleWithin :=
  fun digits scale same => (ordered digits scale same).1

theorem clamp_le (n : Int) : clamp n ≤ Decimal.maxDigits := Nat.min_le_right _ _

theorem clamp_mono {m n : Int} (le : m ≤ n) : clamp m ≤ clamp n := by
  unfold clamp
  omega

/-- Before it is cut, the scale of a step is within its digits, however large those of the operands are. -/
theorem rule_scale_le (op : ArithmeticOp) {ld ls rd rs : Nat} (left : ls ≤ ld) (right : rs ≤ rd) :
    (rule op ld ls rd rs).2 ≤ (rule op ld ls rd rs).1 := by
  have sum : (sumRule ld ls rd rs).2 ≤ (sumRule ld ls rd rs).1 := by
    simp only [sumRule]
    omega
  cases op with
  | add => exact sum
  | subtract => exact sum
  | multiply =>
    simp only [rule, productRule]
    omega
  | divide =>
    -- the whole digits of the dividend come on top of the scale, whichever that is
    simp only [rule, quotientRule]
    omega

theorem scaleWithin_combine {op : ArithmeticOp} {a b : Width} (left : ScaleWithin a)
    (right : ScaleWithin b) : ScaleWithin (combine op a b) := by
  intro digits scale combined
  obtain ⟨ld, ls, rd, rs, leftSame, rightSame, digitsSame, scaleSame⟩ := combine_eq_fixed combined
  rw [digitsSame, scaleSame]
  exact clamp_mono (rule_scale_le op (left ld ls leftSame) (right rd rs rightSame))

theorem ordered_combine {op : ArithmeticOp} {a b : Width} (left : Ordered a) (right : Ordered b) :
    Ordered (combine op a b) := by
  intro digits scale combined
  refine ⟨scaleWithin_combine left.scaleWithin right.scaleWithin digits scale combined, ?_⟩
  obtain ⟨_, _, _, _, _, _, digitsSame, _⟩ := combine_eq_fixed combined
  rw [digitsSame]
  exact clamp_le _

/-! The rules on widths whose scales are within their digits, over natural numbers. -/

theorem sumRule_eq {ld ls rd rs : Nat} (left : ls ≤ ld) (right : rs ≤ rd) :
    sumRule ld ls rd rs =
      (((max (ld - ls) (rd - rs) + 1 + max ls rs : Nat) : Int), ((max ls rs : Nat) : Int)) := by
  unfold sumRule
  refine Prod.ext ?_ ?_
  · simp only
    omega
  · simp only
    omega

theorem productRule_eq (ld ls rd rs : Nat) :
    productRule ld ls rd rs = (((ld + rd : Nat) : Int), ((ls + rs : Nat) : Int)) := rfl

theorem quotientRule_eq {ld ls : Nat} (rd rs : Nat) (left : ls ≤ ld)
    (most : ld ≤ Decimal.maxDigits) :
    ∃ scale : Nat, (ld - ls) + scale ≤ Decimal.maxDigits ∧
      quotientRule ld ls rd rs = ((((ld - ls) + scale + rd : Nat) : Int), (scale : Int)) := by
  unfold Decimal.maxDigits at most
  refine ⟨min (38 - (ld - ls) - rs) 38, ?_, ?_⟩
  · unfold Decimal.maxDigits
    omega
  · unfold quotientRule Decimal.maxDigits
    refine Prod.ext ?_ ?_
    · simp only
      omega
    · simp only
      omega

theorem clamp_natCast (n : Nat) : clamp (n : Int) = min n Decimal.maxDigits := rfl

/-! ### Integers within a width -/

/-- The integer, written at the scale of the width, is within its digits. -/
def Holds (width : Width) (n : Int) : Prop :=
  ∀ digits scale, width = fixed digits scale →
    n.natAbs * Decimal.tenTo scale < Decimal.tenTo digits

theorem whole_lt_of_holds {n digits scale : Nat} (le : scale ≤ digits)
    (held : n * Decimal.tenTo scale < Decimal.tenTo digits) :
    n < Decimal.tenTo (digits - scale) := by
  have split : Decimal.tenTo digits = Decimal.tenTo (digits - scale) * Decimal.tenTo scale := by
    rw [← Decimal.tenTo_add, Nat.sub_add_cancel le]
  rw [split] at held
  exact Nat.lt_of_mul_lt_mul_right held

theorem mul_tenTo_lt {n whole scale digits : Nat} (small : n < Decimal.tenTo whole)
    (le : whole + scale ≤ digits) : n * Decimal.tenTo scale < Decimal.tenTo digits := by
  have scaled := Nat.mul_lt_mul_of_pos_right small (Decimal.tenTo_pos scale)
  rw [← Decimal.tenTo_add] at scaled
  exact Nat.lt_of_lt_of_le scaled (Decimal.tenTo_le_tenTo le)

/-- The digits that a 64-bit integer can have. -/
def wholeDigits : Nat := 19

theorem natAbs_lt_tenTo (n : Signed 64) : n.val.natAbs < Decimal.tenTo wholeDigits := by
  have low := n.low
  have high := n.high
  have room : Decimal.tenTo wholeDigits = 10000000000000000000 := by decide
  rw [Signed.half_sixtyFour] at low high
  rw [room]
  omega

/-- The step does not cut the digits, or the scale leaves room for the digits of an integer.  Division is
always such a step. -/
def KeepsWhole (op : ArithmeticOp) (folded next : Width) : Prop :=
  op = .divide ∨ ∀ ld ls rd rs, folded = fixed ld ls → next = fixed rd rs →
    (rule op ld ls rd rs).1 ≤ Decimal.maxDigits ∨
      (rule op ld ls rd rs).2 + wholeDigits ≤ Decimal.maxDigits

/-- A result whose digits are counted by the rule is within the width also after it has been cut. -/
theorem holds_cut {n : Signed 64} {whole digits scale : Nat}
    (small : n.val.natAbs < Decimal.tenTo whole) (le : whole + scale ≤ digits)
    (keeps : (digits : Int) ≤ Decimal.maxDigits ∨
      (scale : Int) + wholeDigits ≤ Decimal.maxDigits) :
    n.val.natAbs * Decimal.tenTo (clamp scale) < Decimal.tenTo (clamp digits) := by
  rw [clamp_natCast, clamp_natCast]
  by_cases cut : digits ≤ Decimal.maxDigits
  · exact mul_tenTo_lt small (by omega)
  · exact mul_tenTo_lt (natAbs_lt_tenTo n) (by omega)

theorem natAbs_sum_lt {m n : Int} {j k : Nat} (left : m.natAbs < Decimal.tenTo j)
    (right : n.natAbs < Decimal.tenTo k) :
    (m + n).natAbs < Decimal.tenTo (max j k + 1) ∧ (m - n).natAbs < Decimal.tenTo (max j k + 1) := by
  have leftMost := Decimal.tenTo_le_tenTo (Nat.le_max_left j k)
  have rightMost := Decimal.tenTo_le_tenTo (Nat.le_max_right j k)
  have carry : Decimal.tenTo (max j k + 1) = 10 * Decimal.tenTo (max j k) := rfl
  rw [carry]
  omega

theorem natAbs_product_lt {m n : Int} {j k : Nat} (left : m.natAbs < Decimal.tenTo j)
    (right : n.natAbs < Decimal.tenTo k) : (m * n).natAbs < Decimal.tenTo (j + k) := by
  rw [Int.natAbs_mul, Decimal.tenTo_add]
  exact Nat.mul_lt_mul'' left right

theorem natAbs_quotient_lt {m : Int} {j : Nat} (left : m.natAbs < Decimal.tenTo j) (n : Int) :
    (m.tdiv n).natAbs < Decimal.tenTo j := by
  rw [Int.natAbs_tdiv]
  exact Nat.lt_of_le_of_lt (Nat.div_le_self _ _) left

theorem holds_sum {ld ls rd rs : Nat} (left : ls ≤ ld) (right : rs ≤ rd) {n : Signed 64}
    (small : n.val.natAbs < Decimal.tenTo (max (ld - ls) (rd - rs) + 1))
    (room : (sumRule ld ls rd rs).1 ≤ Decimal.maxDigits ∨
      (sumRule ld ls rd rs).2 + wholeDigits ≤ Decimal.maxDigits) :
    n.val.natAbs * Decimal.tenTo (clamp (sumRule ld ls rd rs).2) <
      Decimal.tenTo (clamp (sumRule ld ls rd rs).1) := by
  rw [sumRule_eq left right] at room ⊢
  exact holds_cut small (Nat.le_refl _) room

theorem holds_product {ld ls rd rs : Nat} (left : ls ≤ ld) (right : rs ≤ rd) {n : Signed 64}
    (small : n.val.natAbs < Decimal.tenTo ((ld - ls) + (rd - rs)))
    (room : (productRule ld ls rd rs).1 ≤ Decimal.maxDigits ∨
      (productRule ld ls rd rs).2 + wholeDigits ≤ Decimal.maxDigits) :
    n.val.natAbs * Decimal.tenTo (clamp (productRule ld ls rd rs).2) <
      Decimal.tenTo (clamp (productRule ld ls rd rs).1) := by
  rw [productRule_eq] at room ⊢
  exact holds_cut small (by omega) room

/-- The scale of a quotient was chosen so that the whole part of the dividend is not cut. -/
theorem holds_quotient {ld ls : Nat} (rd rs : Nat) (left : ls ≤ ld)
    (most : ld ≤ Decimal.maxDigits) {n : Int} (small : n.natAbs < Decimal.tenTo (ld - ls)) :
    n.natAbs * Decimal.tenTo (clamp (quotientRule ld ls rd rs).2) <
      Decimal.tenTo (clamp (quotientRule ld ls rd rs).1) := by
  obtain ⟨places, room, same⟩ := quotientRule_eq rd rs left most
  rw [same, clamp_natCast, clamp_natCast]
  exact mul_tenTo_lt small (by omega)

/-- One step of a fold over integers stays within the width of the step. -/
theorem holds_combine {op : ArithmeticOp} {a b : Width} (left : Ordered a) (right : Ordered b)
    {m n : Int} (leftHolds : Holds a m) (rightHolds : Holds b n) {result : Signed 64}
    (step : result.val = Arithmetic.exactStep op m n) (keeps : KeepsWhole op a b) :
    Holds (combine op a b) result.val := by
  intro digits scale combined
  obtain ⟨ld, ls, rd, rs, leftSame, rightSame, digitsSame, scaleSame⟩ := combine_eq_fixed combined
  obtain ⟨leftLe, leftMost⟩ := left ld ls leftSame
  obtain ⟨rightLe, _⟩ := right rd rs rightSame
  have leftSmall := whole_lt_of_holds leftLe (leftHolds ld ls leftSame)
  have rightSmall := whole_lt_of_holds rightLe (rightHolds rd rs rightSame)
  rw [digitsSame, scaleSame]
  cases op with
  | add =>
    have room := keeps.resolve_left nofun ld ls rd rs leftSame rightSame
    refine holds_sum leftLe rightLe ?_ room
    rw [step]
    exact (natAbs_sum_lt leftSmall rightSmall).1
  | subtract =>
    have room := keeps.resolve_left nofun ld ls rd rs leftSame rightSame
    refine holds_sum leftLe rightLe ?_ room
    rw [step]
    exact (natAbs_sum_lt leftSmall rightSmall).2
  | multiply =>
    have room := keeps.resolve_left nofun ld ls rd rs leftSame rightSame
    refine holds_product leftLe rightLe ?_ room
    rw [step]
    exact natAbs_product_lt leftSmall rightSmall
  | divide =>
    refine holds_quotient rd rs leftLe leftMost ?_
    rw [step]
    exact natAbs_quotient_lt leftSmall n

end Width

end WideRow
