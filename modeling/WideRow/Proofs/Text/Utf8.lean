import WideRow.Text.Utf8

/-!
# Bytes that are a text

Showing the bytes of a text gives the text: `lossy` replaces nothing where nothing is broken
(`lossy_encode`).  The bytes of a character are taken one after the other, each by one lemma; the first
one fixes the bounds of the second, and these leave room for every code point there is.
-/

namespace WideRow.Utf8

theorem encode_eq (text : String) : encode text = text.toList.flatMap String.utf8EncodeChar := by
  rw [encode, ← String.utf8Encode_toList, List.utf8Encode]
  simp

/-! ### One byte -/

theorem piecesFrom_whole {byte : UInt8} {piece : Piece} (first : lead byte = .complete piece)
    (rest : Bytes) : piecesFrom none (byte :: rest) = piece :: piecesFrom none rest := by
  simp only [piecesFrom, first]

theorem piecesFrom_begun {byte : UInt8} {u : Unfinished} (first : lead byte = .more u)
    (rest : Bytes) : piecesFrom none (byte :: rest) = piecesFrom (some u) rest := by
  simp only [piecesFrom, first]

/-- Every byte but the first carries six bits. -/
theorem toNat_tail (digit : Nat) :
    (UInt8.ofNat (digit % 64 + 128)).toNat = digit % 64 + 128 :=
  UInt8.toNat_ofNat_of_lt' (show digit % 64 + 128 < 256 by omega)

theorem extend_tail (u : Unfinished) (digit : Nat) :
    u.extend (UInt8.ofNat (digit % 64 + 128)) =
      if u.owed = 1 then .complete (.character (Char.ofNat (u.code * 64 + digit % 64)))
      else .more ⟨u.owed - 1, 0x80, 0xBF, u.code * 64 + digit % 64, u.size + 1⟩ := by
  have bits : (digit % 64 + 128) % 64 = digit % 64 := by omega
  rw [Unfinished.extend, toNat_tail, bits]

/-- A byte in the middle of a character. -/
theorem piecesFrom_more {low high : Nat} (owed code size digit : Nat)
    (inside : low ≤ digit % 64 + 128 ∧ digit % 64 + 128 ≤ high) (rest : Bytes) :
    piecesFrom (some ⟨owed + 2, low, high, code, size⟩) (UInt8.ofNat (digit % 64 + 128) :: rest) =
      piecesFrom (some ⟨owed + 1, 0x80, 0xBF, code * 64 + digit % 64, size + 1⟩) rest := by
  simp only [piecesFrom, toNat_tail, extend_tail]
  rw [if_pos inside, if_neg (by omega)]
  rfl

/-- The last byte of a character. -/
theorem piecesFrom_last {low high : Nat} (code size digit : Nat)
    (inside : low ≤ digit % 64 + 128 ∧ digit % 64 + 128 ≤ high) (rest : Bytes) :
    piecesFrom (some ⟨1, low, high, code, size⟩) (UInt8.ofNat (digit % 64 + 128) :: rest) =
      .character (Char.ofNat (code * 64 + digit % 64)) :: piecesFrom none rest := by
  simp only [piecesFrom, toNat_tail, extend_tail]
  rw [if_pos inside, if_pos trivial]

/-! ### The first byte -/

theorem lead_one {v : Nat} (most : v ≤ 0x7F) :
    lead (UInt8.ofNat v) = .complete (.character (Char.ofNat v)) := by
  simp only [lead, UInt8.toNat_ofNat_of_lt' (show v < 256 by omega)]
  rw [if_pos (by omega)]

theorem lead_two {v : Nat} (least : 0x7F < v) (most : v ≤ 0x7FF) :
    lead (UInt8.ofNat (v / 64 % 32 + 192)) = .more ⟨1, 0x80, 0xBF, v / 64, 1⟩ := by
  simp only [lead, UInt8.toNat_ofNat_of_lt' (show v / 64 % 32 + 192 < 256 by omega)]
  rw [if_neg (by omega), if_neg (by omega), if_pos (by omega)]
  have code : v / 64 % 32 + 192 - 0xC0 = v / 64 := by omega
  rw [code]

/-- The bounds rule out what two bytes could say, and the surrogates. -/
theorem lead_three {v : Nat} (least : 0x7FF < v) (most : v ≤ 0xFFFF)
    (scalar : v < 0xD800 ∨ 0xDFFF < v) :
    ∃ low high, lead (UInt8.ofNat (v / 4096 % 16 + 224)) = .more ⟨2, low, high, v / 4096, 1⟩ ∧
      low ≤ v / 64 % 64 + 128 ∧ v / 64 % 64 + 128 ≤ high := by
  have code : v / 4096 % 16 + 224 - 0xE0 = v / 4096 := by omega
  simp only [lead, UInt8.toNat_ofNat_of_lt' (show v / 4096 % 16 + 224 < 256 by omega), code]
  rw [if_neg (by omega), if_neg (by omega), if_neg (by omega)]
  by_cases first : v / 4096 = 0
  · refine ⟨0xA0, 0xBF, ?_, by omega, by omega⟩
    rw [if_pos (by omega), first]
  rw [if_neg (by omega)]
  by_cases surrogates : v / 4096 = 0xD
  · refine ⟨0x80, 0x9F, ?_, by omega, by omega⟩
    rw [if_pos (by omega), surrogates]
  · refine ⟨0x80, 0xBF, ?_, by omega, by omega⟩
    rw [if_neg (by omega), if_pos (by omega)]

/-- The bounds rule out what three bytes could say, and numbers beyond the last code point. -/
theorem lead_four {v : Nat} (least : 0xFFFF < v) (most : v < 0x110000) :
    ∃ low high, lead (UInt8.ofNat (v / 262144 % 8 + 240)) = .more ⟨3, low, high, v / 262144, 1⟩ ∧
      low ≤ v / 4096 % 64 + 128 ∧ v / 4096 % 64 + 128 ≤ high := by
  have code : v / 262144 % 8 + 240 - 0xF0 = v / 262144 := by omega
  simp only [lead, UInt8.toNat_ofNat_of_lt' (show v / 262144 % 8 + 240 < 256 by omega), code]
  rw [if_neg (by omega), if_neg (by omega), if_neg (by omega), if_neg (by omega),
    if_neg (by omega), if_neg (by omega)]
  by_cases first : v / 262144 = 0
  · refine ⟨0x90, 0xBF, ?_, by omega, by omega⟩
    rw [if_pos (by omega), first]
  rw [if_neg (by omega)]
  by_cases last : v / 262144 = 4
  · refine ⟨0x80, 0x8F, ?_, by omega, by omega⟩
    rw [if_neg (by omega), if_pos (by omega), last]
  · refine ⟨0x80, 0xBF, ?_, by omega, by omega⟩
    rw [if_pos (by omega)]

/-! ### A character, and a text -/

/-- The bytes of a character are cut off as this character. -/
theorem piecesFrom_character (c : Char) (rest : Bytes) :
    piecesFrom none (String.utf8EncodeChar c ++ rest) = .character c :: piecesFrom none rest := by
  have scalar : c.val.toNat < 0xD800 ∨ 0xDFFF < c.val.toNat ∧ c.val.toNat < 0x110000 := c.valid
  have same : Char.ofNat c.val.toNat = c := Char.ofNat_toNat c
  simp only [String.utf8EncodeChar]
  generalize c.val.toNat = v at scalar same ⊢
  have inside : ∀ digit : Nat, 0x80 ≤ digit % 64 + 128 ∧ digit % 64 + 128 ≤ 0xBF := by omega
  have whole : v / 64 * 64 + v % 64 = v := by omega
  have upper : v / 4096 * 64 + v / 64 % 64 = v / 64 := by omega
  have top : v / 262144 * 64 + v / 4096 % 64 = v / 4096 := by omega
  by_cases one : v ≤ 127
  · rw [if_pos one, List.singleton_append, piecesFrom_whole (lead_one one), same]
  rw [if_neg one]
  by_cases two : v ≤ 2047
  · simp only [if_pos two, List.cons_append, List.nil_append]
    rw [piecesFrom_begun (lead_two (by omega) two), piecesFrom_last _ _ _ (inside v), whole, same]
  rw [if_neg two]
  by_cases three : v ≤ 65535
  · obtain ⟨low, high, first, second⟩ := lead_three (by omega) three (by omega)
    simp only [if_pos three, List.cons_append, List.nil_append]
    rw [piecesFrom_begun first, piecesFrom_more 0 _ _ _ second, upper,
      piecesFrom_last _ _ _ (inside v), whole, same]
  · obtain ⟨low, high, first, second⟩ := @lead_four v (by omega) (by omega)
    simp only [if_neg three, List.cons_append, List.nil_append]
    rw [piecesFrom_begun first, piecesFrom_more 1 _ _ _ second, top,
      piecesFrom_more 0 _ _ _ (inside (v / 64)), upper,
      piecesFrom_last _ _ _ (inside v), whole, same]

theorem pieces_encode (text : String) : pieces (encode text) = text.toList.map Piece.character := by
  rw [encode_eq, pieces]
  induction text.toList with
  | nil => rfl
  | cons c rest ih => rw [List.flatMap_cons, piecesFrom_character, ih, List.map_cons]

/-- Of a text, nothing is replaced. -/
theorem lossy_encode (text : String) : lossy (encode text) = text := by
  have shown : (fun c => (Piece.character c).shown) = id := by
    funext c
    rfl
  rw [lossy, pieces_encode, List.map_map]
  show String.ofList (text.toList.map fun c => (Piece.character c).shown) = text
  rw [shown, List.map_id, String.ofList_toList]

theorem lossy_of_decode? {bytes : Bytes} {text : String} (read : decode? bytes = some text) :
    lossy bytes = text := by
  rw [← encode_of_decode? read, lossy_encode]

end WideRow.Utf8
