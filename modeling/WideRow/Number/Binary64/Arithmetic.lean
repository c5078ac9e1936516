import WideRow.Number.Binary64.Basic

/-!
# Floating-point arithmetic

Each operation is the exact rational result rounded once.  `ofRatio` rounds a quotient of natural
numbers to the nearest double, a tie to the even pattern, and beyond the largest double to infinity;
the operations settle the infinities and zeros and leave the rest to it.
-/

namespace WideRow.Binary64

/-- The natural number nearest to a quotient, a tie going to the even one. -/
def nearestEven (numerator denominator : Nat) : Nat :=
  let quotient := numerator / denominator
  let remainder := numerator % denominator
  if 2 * remainder < denominator then quotient
  else if denominator < 2 * remainder then quotient + 1
  else quotient + quotient % 2

/-- Whether `numerator / denominator` is at least the given power of two. -/
def reaches (numerator denominator : Nat) (power : Int) : Bool :=
  if 0 ≤ power then decide (denominator * Nat.pow 2 power.toNat ≤ numerator)
  else decide (denominator ≤ numerator * Nat.pow 2 (-power).toNat)

/-- The exponent of the largest power of two not above a positive quotient. -/
def binaryExponent (numerator denominator : Nat) : Int :=
  let guess : Int := (numerator.log2 : Int) - denominator.log2
  if reaches numerator denominator guess then guess else guess - 1

/-- The magnitude of the double nearest to a quotient. -/
def ratioMagnitude (numerator denominator : Nat) : Nat :=
  if numerator = 0 then 0
  else
    let spacing : Int := max (binaryExponent numerator denominator - 52) (-1074)
    let rounded :=
      if 0 ≤ spacing then nearestEven numerator (denominator * Nat.pow 2 spacing.toNat)
      else nearestEven (numerator * Nat.pow 2 (-spacing).toNat) denominator
    min ((spacing + 1074).toNat * fractionSize + rounded) infinityMagnitude

/-- The double nearest to a quotient of natural numbers, with the given sign. -/
def ofRatio (negative : Bool) (numerator denominator : Nat) : Binary64 :=
  ofMagnitude negative (ratioMagnitude numerator denominator)

/-- The double nearest to an integer. -/
def ofInt (n : Int) : Binary64 := ofRatio (decide (n < 0)) n.natAbs 1

/-- The sum.  A sum of zero is negative only if both terms are. -/
def add (x y : Binary64) : Binary64 :=
  if x.isNaN || y.isNaN then nan
  else if x.isInfinite then
    if y.isInfinite && x.negative != y.negative then nan else x
  else if y.isInfinite then y
  else
    let sum := x.signedUnits + y.signedUnits
    if sum = 0 then ofMagnitude (x.negative && y.negative) 0
    else ofRatio (decide (sum < 0)) sum.natAbs unitsInOne

/-- The difference. -/
def subtract (x y : Binary64) : Binary64 := add x y.negate

/-- The product. -/
def multiply (x y : Binary64) : Binary64 :=
  let negative := x.negative != y.negative
  if x.isNaN || y.isNaN then nan
  else if x.isInfinite || y.isInfinite then
    if x.isZero || y.isZero then nan else infinity negative
  else ofRatio negative (x.units * y.units) (unitsInOne * unitsInOne)

/-- The quotient. -/
def divide (x y : Binary64) : Binary64 :=
  let negative := x.negative != y.negative
  if x.isNaN || y.isNaN then nan
  else if x.isInfinite then
    if y.isInfinite then nan else infinity negative
  else if y.isInfinite then ofMagnitude negative 0
  else if y.isZero then
    if x.isZero then nan else infinity negative
  else ofRatio negative x.units y.units

/-- `result * base ^ exponent` by repeated squaring, every product rounded. -/
def powerFrom (result base : Binary64) (exponent : Nat) : Binary64 :=
  let result := if exponent % 2 = 1 then multiply result base else result
  if exponent / 2 = 0 then result else powerFrom result (multiply base base) (exponent / 2)
termination_by exponent
decreasing_by omega

/-- The power of ten; a negative one is the reciprocal of the positive one. -/
def tenTo (exponent : Int) : Binary64 :=
  let power := powerFrom one ten exponent.natAbs
  if exponent < 0 then divide one power else power

end WideRow.Binary64
