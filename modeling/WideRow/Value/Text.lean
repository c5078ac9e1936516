import WideRow.Number.Binary64.Text
import WideRow.Text.Quoted
import WideRow.Value.Basic

/-!
# Text of values

Three texts of a value: the plain one, the literal of the query language, and the diagnostic one that
names the kind of value.

A decimal is written with exactly `scale` fraction digits.  At scale zero that is a plain integer, and
beyond the largest scale the integer is followed by `E-` and the scale.
-/

namespace WideRow

/-- A natural number with zeros in front up to the given length. -/
def Decimal.padded (length n : Nat) : List Char :=
  let digits := Nat.toDigits 10 n
  List.replicate (length - digits.length) '0' ++ digits

/-- The text of a decimal. -/
def Decimal.text (unscaled : Unscaled) (scale : Nat) : List Char :=
  if scale = 0 then (toString unscaled.val).toList
  else
    match Decimal.tenTo? scale with
    | none => (toString unscaled.val).toList ++ 'E' :: '-' :: Nat.toDigits 10 scale
    | some divisor =>
      let magnitude := unscaled.val.natAbs
      let body := Nat.toDigits 10 (magnitude / divisor) ++
        '.' :: padded scale (magnitude % divisor)
      if unscaled.val < 0 then '-' :: body else body

namespace Value

/-- The plain text of a value. -/
def display : Value → String
  | null => "NULL"
  | integer n => toString n.val
  | float x => x.text
  | decimal unscaled scale => String.ofList (Decimal.text unscaled scale)
  | text s => String.ofList ('"' :: (s.toList ++ ['"']))
  | boolean b => if b then "true" else "false"

/-- The value as a literal of the query language. -/
def sqlLiteral : Value → String
  | text s => Quoted.literal s
  | boolean b => if b then "TRUE" else "FALSE"
  | v => v.display

/-- The diagnostic text of a value. -/
def diagnostic : Value → String
  | null => "Null"
  | integer n => s!"Integer({n.val})"
  | float x => s!"Float({x.markedText})"
  | decimal unscaled scale => s!"Decimal \x7b value: {unscaled.val}, scale: {scale} \x7d"
  | text s => s!"Text({Quoted.escape s})"
  | boolean b => s!"Boolean({b})"

end Value

end WideRow
