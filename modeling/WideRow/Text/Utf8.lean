import WideRow.Bytes.Basic

/-!
# UTF-8

`encode` and `decode?` are the two directions between text and bytes.  For bytes that are no text,
`pieces` cuts them into characters and broken stretches: a broken stretch is the longest beginning of
a character that cannot be continued, and at the end of the input an unfinished character is kept
apart as such.  `lossy` shows each stretch as one replacement character, and `fault?` names the first.

A character's first byte fixes how many bytes follow and the range of the second one, which rules out
overlong forms, surrogates and numbers beyond the last code point.
-/

namespace WideRow.Utf8

/-- The bytes of a text. -/
def encode (text : String) : Bytes := text.toByteArray.data.toList

/-- The text of the bytes, if they are one. -/
def decode? (bytes : Bytes) : Option String := String.fromUTF8? ⟨bytes.toArray⟩

theorem decode?_encode (text : String) : decode? (encode text) = some text := by
  have same : (⟨text.toByteArray.data.toList.toArray⟩ : ByteArray) = text.toByteArray := by
    simp only [Array.toArray_toList]
  rw [decode?, encode, same, String.fromUTF8?, dif_pos text.isValidUTF8]
  rfl

theorem encode_of_decode? {bytes : Bytes} {text : String} (read : decode? bytes = some text) :
    encode text = bytes := by
  unfold decode? String.fromUTF8? at read
  split at read
  · injection read with same
    rw [← same]
    simp only [encode, String.fromUTF8]
  · contradiction

/-! ### Broken text -/

/-- A character of which some bytes are still owed; the next one lies between two bounds. -/
structure Unfinished where
  owed : Nat
  low : Nat
  high : Nat
  code : Nat
  size : Nat

/-- What a stretch of bytes amounts to. -/
inductive Piece where
  /-- A whole character. -/
  | character (c : Char)
  /-- A broken stretch of the given size. -/
  | broken (size : Nat)
  /-- The input ends inside a character, `size` bytes of which are there. -/
  | unfinished (size : Nat)

/-- The number of bytes of the input a piece stands for. -/
def Piece.size : Piece → Nat
  | .character c => c.utf8Size
  | .broken size => size
  | .unfinished size => size

/-- What the first byte of a character says. -/
inductive Lead where
  | complete (piece : Piece)
  | more (rest : Unfinished)

/-- Reads the first byte of a character. -/
def lead (byte : UInt8) : Lead :=
  let b := byte.toNat
  if b < 0x80 then .complete (.character (Char.ofNat b))
  else if b < 0xC2 then .complete (.broken 1)
  else if b < 0xE0 then .more ⟨1, 0x80, 0xBF, b - 0xC0, 1⟩
  else if b = 0xE0 then .more ⟨2, 0xA0, 0xBF, 0, 1⟩
  else if b = 0xED then .more ⟨2, 0x80, 0x9F, 0xD, 1⟩
  else if b < 0xF0 then .more ⟨2, 0x80, 0xBF, b - 0xE0, 1⟩
  else if b = 0xF0 then .more ⟨3, 0x90, 0xBF, 0, 1⟩
  else if b < 0xF4 then .more ⟨3, 0x80, 0xBF, b - 0xF0, 1⟩
  else if b = 0xF4 then .more ⟨3, 0x80, 0x8F, 4, 1⟩
  else .complete (.broken 1)

/-- Takes one more byte, which is within the bounds. -/
def Unfinished.extend (u : Unfinished) (byte : UInt8) : Lead :=
  let code := u.code * 64 + byte.toNat % 64
  if u.owed = 1 then .complete (.character (Char.ofNat code))
  else .more ⟨u.owed - 1, 0x80, 0xBF, code, u.size + 1⟩

/-- Cuts bytes into pieces, given the character that was begun before them. -/
def piecesFrom (begun : Option Unfinished) : Bytes → List Piece
  | [] => (begun.map fun u => Piece.unfinished u.size).toList
  | byte :: rest =>
    match begun with
    | none =>
      match lead byte with
      | .complete piece => piece :: piecesFrom none rest
      | .more u => piecesFrom (some u) rest
    | some u =>
      if u.low ≤ byte.toNat ∧ byte.toNat ≤ u.high then
        match u.extend byte with
        | .complete piece => piece :: piecesFrom none rest
        | .more u => piecesFrom (some u) rest
      else
        .broken u.size ::
          match lead byte with
          | .complete piece => piece :: piecesFrom none rest
          | .more u => piecesFrom (some u) rest

/-- Cuts bytes into characters and broken stretches. -/
def pieces (bytes : Bytes) : List Piece := piecesFrom none bytes

/-- The character shown for a piece. -/
def Piece.shown : Piece → Char
  | .character c => c
  | .broken _ => '\uFFFD'
  | .unfinished _ => '\uFFFD'

/-- The text of the bytes, each broken stretch shown as one replacement character. -/
def lossy (bytes : Bytes) : String := String.ofList ((pieces bytes).map Piece.shown)

/-- Where and how bytes fail to be a text. -/
inductive Fault where
  | invalid (size index : Nat)
  | incomplete (index : Nat)
  deriving DecidableEq

/-- The first fault among pieces that start at `index`. -/
def firstFault? (index : Nat) : List Piece → Option Fault
  | [] => none
  | .broken size :: _ => some (.invalid size index)
  | .unfinished _ :: _ => some (.incomplete index)
  | piece :: rest => firstFault? (index + piece.size) rest

/-- The first fault of bytes that are no text. -/
def fault? (bytes : Bytes) : Option Fault := firstFault? 0 (pieces bytes)

/-- The description of a fault. -/
def Fault.message : Fault → String
  | .invalid size index => s!"invalid utf-8 sequence of {size} bytes from index {index}"
  | .incomplete index => s!"incomplete utf-8 byte sequence from index {index}"

end WideRow.Utf8
