import WideRow.Text.Unprintable

/-!
# Quoted text

Two ways of quoting.  `Quoted.escape` is for diagnostics: double quotes, backslashes and unprintable
characters are written as escapes.  `Quoted.literal` is for query text: single quotes, and a quote
inside is written twice.
-/

namespace WideRow.Quoted

/-- The lower-case hexadecimal digits of a number. -/
def hexDigits (n : Nat) : List Char := Nat.toDigits 16 n

/-- Whether a character is shown only through an escape. -/
def isUnprintable (c : Char) : Bool := Unprintable.covers Unprintable.ranges c.toNat

/-- A character as it stands between double quotes in diagnostics. -/
def escapeChar (c : Char) : List Char :=
  if c = '"' then ['\\', '"']
  else if c = '\\' then ['\\', '\\']
  else if c = '\n' then ['\\', 'n']
  else if c = '\r' then ['\\', 'r']
  else if c = '\t' then ['\\', 't']
  else if c.toNat = 0 then ['\\', '0']
  else if isUnprintable c then '\\' :: 'u' :: '\x7b' :: (hexDigits c.toNat ++ ['\x7d'])
  else [c]

/-- A text between double quotes, with escapes. -/
def escape (text : String) : String :=
  String.ofList ('"' :: (text.toList.flatMap escapeChar ++ ['"']))

/-- Every single quote written twice. -/
def doubleQuotes : List Char → List Char
  | [] => []
  | c :: rest => if c = '\'' then c :: c :: doubleQuotes rest else c :: doubleQuotes rest

/-- A text between single quotes, as a literal of the query language. -/
def literal (text : String) : String :=
  String.ofList ('\'' :: (doubleQuotes text.toList ++ ['\'']))

end WideRow.Quoted
