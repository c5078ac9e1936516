/-!
# Binary floating point

A double is its 64-bit pattern: a sign bit, eleven exponent bits and fifty-two fraction bits.  The
63 bits below the sign are the `magnitude`; their order is the order of absolute values, so doubles
that are numbers are compared by `key`, the magnitude with the sign, in which both zeros are zero.

A finite double is a whole multiple of the least positive one; `units` is that multiple.
-/

namespace WideRow

/-- A double-precision number, by its bit pattern. -/
structure Binary64 where
  bits : Nat
  bits_lt : bits < 18446744073709551616
  deriving DecidableEq

namespace Binary64

/-- The weight of the sign bit. -/
def signWeight : Nat := 9223372036854775808

/-- The weight of the lowest exponent bit. -/
def fractionSize : Nat := 4503599627370496

/-- The magnitude of the infinities. -/
def infinityMagnitude : Nat := 9218868437227405312

/-- Whether the sign bit is set. -/
def negative (x : Binary64) : Bool := decide (signWeight ≤ x.bits)

/-- The pattern without its sign bit. -/
def magnitude (x : Binary64) : Nat := x.bits % signWeight

/-- The exponent bits. -/
def exponentField (x : Binary64) : Nat := x.magnitude / fractionSize

/-- The fraction bits. -/
def fraction (x : Binary64) : Nat := x.magnitude % fractionSize

/-- Whether the pattern stands for no number. -/
def isNaN (x : Binary64) : Bool := decide (infinityMagnitude < x.magnitude)

/-- Whether the pattern is an infinity. -/
def isInfinite (x : Binary64) : Bool := decide (x.magnitude = infinityMagnitude)

/-- Whether the pattern is a zero of either sign. -/
def isZero (x : Binary64) : Bool := decide (x.magnitude = 0)

/-- The double of the given sign and magnitude; a magnitude too large counts as not a number. -/
def ofMagnitude (negative : Bool) (magnitude : Nat) : Binary64 :=
  if small : magnitude < signWeight then
    if negative then ⟨signWeight + magnitude, by simp only [signWeight] at *; omega⟩
    else ⟨magnitude, by simp only [signWeight] at small; omega⟩
  else ⟨9221120237041090560, by decide⟩

/-- The double of a 64-bit pattern, higher bits dropped. -/
def ofBits (n : Nat) : Binary64 := ⟨n % 18446744073709551616, Nat.mod_lt _ (by decide)⟩

/-- The quiet pattern that stands for no number. -/
def nan : Binary64 := ofBits 9221120237041090560

/-- Positive zero. -/
def zero : Binary64 := ofBits 0

/-- One. -/
def one : Binary64 := ofBits 4607182418800017408

/-- Ten. -/
def ten : Binary64 := ofBits 4621819117588971520

/-- The infinity of the given sign. -/
def infinity (negative : Bool) : Binary64 := ofMagnitude negative infinityMagnitude

/-- The double with the other sign. -/
def negate (x : Binary64) : Binary64 := ofMagnitude (!x.negative) x.magnitude

/-! ### Order -/

/-- The position among the numbers; both zeros are at zero. -/
def key (x : Binary64) : Int :=
  if x.negative then -(x.magnitude : Int) else x.magnitude

/-- The order of two doubles, unless one of them is not a number. -/
def compare? (x y : Binary64) : Option Ordering :=
  if x.isNaN || y.isNaN then none else some (compare x.key y.key)

/-- Numeric equality: the zeros are equal, and what is not a number equals nothing. -/
def equals (x y : Binary64) : Bool := x.compare? y == some .eq

/-! ### Value of a finite double -/

/-- The whole significand, the leading bit included. -/
def significand (x : Binary64) : Nat :=
  if x.exponentField = 0 then x.fraction else x.fraction + fractionSize

/-- The power of two that the significand is a multiple of, counted from the least one. -/
def scaleIndex (x : Binary64) : Nat := x.exponentField - 1

/-- The absolute value as a multiple of the least positive double. -/
def units (x : Binary64) : Nat := x.significand * Nat.pow 2 x.scaleIndex

/-- The value as a multiple of the least positive double. -/
def signedUnits (x : Binary64) : Int :=
  if x.negative then -(x.units : Int) else x.units

/-- How many times the least positive double goes into one. -/
def unitsInOne : Nat := Nat.pow 2 1074

end Binary64

end WideRow
