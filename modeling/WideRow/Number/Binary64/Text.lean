import WideRow.Number.Binary64.Basic
import WideRow.Number.Decimal

/-!
# Decimal text of doubles

The text of a finite double has the fewest digits that read back as the same double; of two
candidates with that many digits the nearer one is taken, and of two equally near ones the larger.
The test is exact: a candidate reads back if it lies between the midpoints to the neighbouring
doubles, the midpoints included when the significand is even.

Two layouts are used.  The plain one is positional throughout.  The marked one shows that the number
is a double: a whole number ends in `.0`, and numbers below `0.0001` or from `10 ^ 16` on are written
with an exponent.
-/

namespace WideRow.Binary64

/-- An exact positive quotient. -/
structure Ratio where
  numerator : Nat
  denominator : Nat

/-- A whole number times a power of ten. -/
def Ratio.ofTens (count : Nat) (power : Int) : Ratio :=
  if 0 ≤ power then ⟨count * Decimal.tenTo power.toNat, 1⟩
  else ⟨count, Decimal.tenTo (-power).toNat⟩

/-- The order of two quotients, by cross multiplication. -/
def Ratio.order (a b : Ratio) : Ordering :=
  compare (a.numerator * b.denominator) (b.numerator * a.denominator)

/-- The quotient of two quotients, rounded down. -/
def Ratio.quotient (a b : Ratio) : Nat :=
  (a.numerator * b.denominator) / (a.denominator * b.numerator)

/-- The absolute value and the midpoints to its neighbours, in quarters of the spacing. -/
structure Reach where
  value : Ratio
  lower : Ratio
  upper : Ratio
  closed : Bool

/-- The reals that round to a finite positive double.  Below a power of two the spacing halves. -/
def reach (x : Binary64) : Reach :=
  let quarter := Nat.pow 2 x.scaleIndex
  let whole := 4 * unitsInOne
  let m := x.significand
  let below := if m = fractionSize && 1 < x.exponentField then 4 * m - 1 else 4 * m - 2
  { value := ⟨4 * m * quarter, whole⟩
    lower := ⟨below * quarter, whole⟩
    upper := ⟨(4 * m + 2) * quarter, whole⟩
    closed := m % 2 = 0 }

/-- Whether a candidate reads back as the double. -/
def Reach.holds (r : Reach) (candidate : Ratio) : Bool :=
  match r.lower.order candidate, candidate.order r.upper with
  | .lt, .lt => true
  | .eq, .lt => r.closed
  | .lt, .eq => r.closed
  | _, _ => false

/-- The number of digits before the decimal point of a positive quotient; for a quotient below one,
minus the number of zeros right after the point. -/
def decimalExponent (value : Ratio) : Int :=
  if value.denominator ≤ value.numerator then
    Decimal.digitCount (value.numerator / value.denominator)
  else
    let reciprocal := value.denominator / value.numerator
    let count := Decimal.digitCount reciprocal
    if Decimal.tenTo (count - 1) * value.numerator = value.denominator then 2 - (count : Int)
    else 1 - (count : Int)

/-- The multiple of a power of ten that reads back and is nearest to the value, if one of the value's
two neighbours among those multiples reads back. -/
def Reach.nearest? (r : Reach) (power : Int) : Option Nat :=
  let down := r.value.quotient (Ratio.ofTens 1 power)
  let up := down + 1
  match r.holds (Ratio.ofTens down power), r.holds (Ratio.ofTens up power) with
  | true, true =>
    let middle := Ratio.ofTens (10 * down + 5) (power - 1)
    if r.value.order middle = .lt then some down else some up
  | true, false => some down
  | false, true => some up
  | false, false => none

/-- The digits of a positive number and the place of its decimal point, counted from before the
first digit. -/
structure Digits where
  digits : List Char
  point : Int

/-- The number without trailing zeros, with a point after the first `length + power` digits. -/
def Digits.ofTens (count : Nat) (power : Int) : Digits :=
  let written := Nat.toDigits 10 count
  let kept := (written.reverse.dropWhile (· = '0')).reverse
  ⟨kept, (written.length : Int) + power⟩

/-- The fewest digits that read back.  Seventeen always do. -/
def shortest (x : Binary64) : Digits :=
  let r := x.reach
  let places := decimalExponent r.value
  let found := (List.range 17).findSome? fun (k : Nat) =>
    let power : Int := places - ((k : Int) + 1)
    (r.nearest? power).map fun count => Digits.ofTens count power
  found.getD ⟨['0'], 1⟩

/-- Positional notation, without a point for a whole number. -/
def Digits.positional (d : Digits) : List Char :=
  if d.point ≤ 0 then
    '0' :: '.' :: (List.replicate (-d.point).toNat '0' ++ d.digits)
  else
    let whole := d.point.toNat
    if d.digits.length ≤ whole then d.digits ++ List.replicate (whole - d.digits.length) '0'
    else d.digits.take whole ++ '.' :: d.digits.drop whole

/-- One digit, the rest after a point, and the exponent. -/
def Digits.exponential (d : Digits) : List Char :=
  let mantissa :=
    match d.digits with
    | [] => []
    | [c] => [c]
    | c :: rest => c :: '.' :: rest
  mantissa ++ 'e' :: (toString (d.point - 1)).toList

/-- Positional notation that always shows a point. -/
def Digits.pointed (d : Digits) : List Char :=
  if d.digits.length ≤ d.point then d.positional ++ ['.', '0'] else d.positional

/-- Text of a double, given the text of zero and the layout of positive finite numbers. -/
def textWith (zero : List Char) (layout : Digits → List Char) (x : Binary64) : String :=
  if x.isNaN then "NaN"
  else
    let body :=
      if x.isInfinite then "inf".toList
      else if x.isZero then zero
      else layout x.shortest
    String.ofList (if x.negative then '-' :: body else body)

/-- The plain text: positional, without a point for a whole number. -/
def text (x : Binary64) : String := textWith ['0'] Digits.positional x

/-- The marked text: with a point, or with an exponent for very small and very large numbers. -/
def markedText (x : Binary64) : String :=
  textWith ['0', '.', '0']
    (fun d => if d.point ≤ -4 ∨ 17 ≤ d.point then d.exponential else d.pointed) x

end WideRow.Binary64
