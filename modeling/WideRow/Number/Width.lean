import WideRow.Expr.Operator
import WideRow.Number.Decimal

/-!
# Widths of exact numbers

A width is a limit on the number of digits and a scale, each of which may be absent.  `combine` gives
the width of a result from the width of what has been folded so far and that of the next operand.  An
operand without a full width makes every later width `saturated`; otherwise both fields of a result
are set and at most `Decimal.maxDigits`.
-/

namespace WideRow

/-- The number of digits and the scale that a numeric expression is held to. -/
structure Width where
  digits : Option Nat
  scale : Option Nat
  deriving DecidableEq

namespace Width

/-- No limit of either kind. -/
def unconstrained : Width := ⟨none, none⟩

/-- The width of a result that some operand leaves open. -/
def saturated : Width := ⟨some Decimal.maxDigits, none⟩

/-- A width with both fields set. -/
def fixed (digits scale : Nat) : Width := ⟨some digits, some scale⟩

/-- Both fields, when both are set. -/
def resolved? (w : Width) : Option (Nat × Nat) := do
  let digits ← w.digits
  let scale ← w.scale
  some (digits, scale)

/-- An integer brought between zero and the largest number of digits. -/
def clamp (n : Int) : Nat := min n.toNat Decimal.maxDigits

/-- Digits and scale of a sum, before clamping: the longer whole part, the longer fraction and a
digit for the carry. -/
def sumRule (leftDigits leftScale rightDigits rightScale : Nat) : Int × Int :=
  let scale : Int := max leftScale rightScale
  (max ((leftDigits : Int) - leftScale) ((rightDigits : Int) - rightScale) + scale + 1, scale)

/-- Digits and scale of a product, before clamping. -/
def productRule (leftDigits leftScale rightDigits rightScale : Nat) : Int × Int :=
  ((leftDigits : Int) + rightDigits, (leftScale : Int) + rightScale)

/-- Digits and scale of a quotient, before clamping: as many fraction digits as leave room for the
dividend. -/
def quotientRule (leftDigits leftScale rightDigits rightScale : Nat) : Int × Int :=
  let most : Int := Decimal.maxDigits
  let scale : Int := min (max (most - leftDigits + leftScale - rightScale) 0) most
  (scale + leftDigits - leftScale + rightDigits, scale)

/-- The rule of an operator. -/
def rule : ArithmeticOp → Nat → Nat → Nat → Nat → Int × Int
  | .add => sumRule
  | .subtract => sumRule
  | .multiply => productRule
  | .divide => quotientRule

/-- The width of one step of a fold. -/
def combine (op : ArithmeticOp) (folded next : Width) : Width :=
  match folded.resolved?, next.resolved? with
  | some (leftDigits, leftScale), some (rightDigits, rightScale) =>
    let (digits, scale) := rule op leftDigits leftScale rightDigits rightScale
    fixed (clamp digits) (clamp scale)
  | _, _ => saturated

/-- The widths after each step of a fold that starts from `folded`. -/
def steps (op : ArithmeticOp) (folded : Width) : List Width → List Width
  | [] => []
  | next :: rest =>
    let width := combine op folded next
    width :: steps op width rest

theorem steps_length (op : ArithmeticOp) (folded : Width) (operands : List Width) :
    (steps op folded operands).length = operands.length := by
  induction operands generalizing folded with
  | nil => rfl
  | cons next rest ih => simp only [steps, List.length_cons, ih]

end Width

end WideRow
