import WideRow.Proofs.Number.Decimal
import WideRow.Value.Text

/-!
# The text of decimals

`Decimal.read?` reads decimal notation: a sign, digits, and then nothing, a point with fraction digits, or
`E-` with the digits of a scale.  The text of a decimal is in one of the three forms, by its scale, and is
read back as the unscaled integer and the scale that it was written for (`Decimal.text_exact`), so two
decimals have the same text only if they agree in both.
-/

namespace WideRow.Decimal

/-! ### Reading -/

/-- The number that a run of digits writes. -/
def number (digits : List Char) : Nat := Nat.ofDigitChars 10 digits 0

/-- Whether the characters are one or more digits. -/
def isNumeral (chars : List Char) : Bool := !chars.isEmpty && chars.all Char.isDigit

/-- The unscaled number and the scale, from the whole digits and what stands behind them. -/
def readBehind? (whole : List Char) : List Char → Option (Nat × Nat)
  | [] => some (number whole, 0)
  | '.' :: fraction =>
    if isNumeral fraction then some (number (whole ++ fraction), fraction.length) else none
  | 'E' :: '-' :: scale => if isNumeral scale then some (number whole, number scale) else none
  | _ => none

/-- Reads a decimal without its sign. -/
def readUnsigned? (chars : List Char) : Option (Nat × Nat) :=
  let whole := chars.takeWhile Char.isDigit
  if whole = [] then none else readBehind? whole (chars.dropWhile Char.isDigit)

/-- Reads a decimal: its unscaled integer and its scale. -/
def read? : List Char → Option (Int × Nat)
  | '-' :: chars => (readUnsigned? chars).map fun taken => (-(taken.1 : Int), taken.2)
  | chars => (readUnsigned? chars).map fun taken => ((taken.1 : Int), taken.2)

/-! ### Digits -/

theorem number_toDigits (n : Nat) : number (Nat.toDigits 10 n) = n := Nat.ofDigitChars_ten_toDigits

theorem isNumeral_iff {chars : List Char} :
    isNumeral chars = true ↔ chars ≠ [] ∧ ∀ c ∈ chars, c.isDigit = true := by
  rw [isNumeral, Bool.and_eq_true, List.all_eq_true, Bool.not_eq_true', List.isEmpty_eq_false_iff]

theorem isNumeral_toDigits (n : Nat) : isNumeral (Nat.toDigits 10 n) = true :=
  isNumeral_iff.mpr
    ⟨Nat.toDigits_ne_nil, fun _ => Nat.isDigit_of_mem_toDigits (by decide) (by decide)⟩

theorem isDigit_padded {length n : Nat} {c : Char} (member : c ∈ padded length n) :
    c.isDigit = true := by
  rcases List.mem_append.mp member with zeros | digits
  · rw [(List.mem_replicate.mp zeros).2]
    decide
  · exact Nat.isDigit_of_mem_toDigits (by decide) (by decide) digits

theorem length_padded {length n : Nat} (positive : 0 < length) (small : n < 10 ^ length) :
    (padded length n).length = length := by
  have fits := (Nat.length_toDigits_le_iff (b := 10) (by decide) positive).mpr small
  rw [padded, List.length_append, List.length_replicate]
  omega

theorem isNumeral_padded {length n : Nat} (positive : 0 < length) (small : n < 10 ^ length) :
    isNumeral (padded length n) = true := by
  refine isNumeral_iff.mpr ⟨?_, fun _ member => isDigit_padded member⟩
  rw [← List.length_pos_iff, length_padded positive small]
  exact positive

theorem number_append (whole fraction : List Char) :
    number (whole ++ fraction) = 10 ^ fraction.length * number whole + number fraction := by
  rw [number, Nat.ofDigitChars_append, Nat.ofDigitChars_eq_ofDigitChars_zero]
  rfl

theorem number_padded (length n : Nat) : number (padded length n) = n := by
  have zeros : ∀ count, number (List.replicate count '0') = 0 := by
    intro count
    rw [number, Nat.ofDigitChars_replicate_zero, Nat.mul_zero]
  rw [padded, number_append, zeros, number_toDigits, Nat.mul_zero, Nat.zero_add]

/-! ### Writing -/

/-- The sign in front of the digits of an integer. -/
def sign (n : Int) : List Char := if n < 0 then ['-'] else []

theorem toList_toString (n : Int) : (toString n).toList = sign n ++ Nat.toDigits 10 n.natAbs := by
  cases n with
  | ofNat m =>
    have positive : ¬(Int.ofNat m < 0) := Int.not_lt.mpr (Int.natCast_nonneg m)
    rw [sign, if_neg positive]
    exact Nat.toList_repr
  | negSucc m =>
    show ("-" ++ Nat.repr (m + 1)).toList = _
    rw [String.toList_append, Nat.toList_repr, sign, if_pos (Int.negSucc_lt_zero m)]
    rfl

/-- At scale zero a decimal is written as an integer. -/
theorem text_whole (u : Unscaled) : text u 0 = sign u.val ++ Nat.toDigits 10 u.val.natAbs := by
  rw [text, if_pos rfl, toList_toString]

/-- At the other scales of declared decimals, all digits of the scale stand behind the point. -/
theorem text_point (u : Unscaled) {scale : Nat} (positive : 0 < scale) (small : scale ≤ maxDigits) :
    text u scale = sign u.val ++ (Nat.toDigits 10 (u.val.natAbs / 10 ^ scale) ++
      '.' :: padded scale (u.val.natAbs % 10 ^ scale)) := by
  have power : tenTo? scale = some (10 ^ scale) := by
    rw [tenTo?, if_pos small, tenTo_eq_pow]
  rw [text, if_neg (Nat.ne_of_gt positive), power, sign]
  by_cases negative : u.val < 0
  · rw [if_pos negative]
    exact if_pos negative
  · rw [if_neg negative]
    exact if_neg negative

/-- Beyond the scales of declared decimals, the scale is written behind the integer. -/
theorem text_exponent (u : Unscaled) {scale : Nat} (large : maxDigits < scale) :
    text u scale = sign u.val ++ (Nat.toDigits 10 u.val.natAbs ++
      'E' :: '-' :: Nat.toDigits 10 scale) := by
  rw [text, if_neg (by omega), tenTo?, if_neg (Nat.not_le_of_lt large), toList_toString,
    List.append_assoc]

/-! ### Reading what is written -/

theorem readUnsigned?_digits (n : Nat) {behind : List Char}
    (ends : ∀ c ∈ behind.head?, c.isDigit = false) :
    readUnsigned? (Nat.toDigits 10 n ++ behind) = readBehind? (Nat.toDigits 10 n) behind := by
  have stops : behind.takeWhile Char.isDigit = [] ∧ behind.dropWhile Char.isDigit = behind := by
    cases behind with
    | nil => exact ⟨rfl, rfl⟩
    | cons c rest =>
      have end_ : ¬(c.isDigit = true) := by
        rw [ends c rfl]
        exact Bool.false_ne_true
      exact ⟨List.takeWhile_cons_of_neg end_, List.dropWhile_cons_of_neg end_⟩
  have run : ∀ c ∈ Nat.toDigits 10 n, c.isDigit = true :=
    fun _ => Nat.isDigit_of_mem_toDigits (by decide) (by decide)
  rw [readUnsigned?, List.takeWhile_append_of_pos run, List.dropWhile_append_of_pos run, stops.1,
    stops.2, List.append_nil, if_neg Nat.toDigits_ne_nil]

theorem read?_of_digit {chars : List Char} (begins : ∀ c ∈ chars.head?, c.isDigit = true) :
    read? chars = (readUnsigned? chars).map fun taken => ((taken.1 : Int), taken.2) := by
  unfold read?
  split
  · exact absurd (begins '-' rfl) (by decide)
  · rfl

/-- The sign and the magnitude are read apart, as no run of digits begins with a sign. -/
theorem read?_signed (n : Int) {whole scale : Nat} {behind : List Char}
    (unsigned : readUnsigned? (Nat.toDigits 10 whole ++ behind) = some (n.natAbs, scale)) :
    read? (sign n ++ (Nat.toDigits 10 whole ++ behind)) = some (n, scale) := by
  by_cases negative : n < 0
  · have value : -(n.natAbs : Int) = n := by omega
    rw [sign, if_pos negative]
    show (readUnsigned? (Nat.toDigits 10 whole ++ behind)).map _ = _
    rw [unsigned, Option.map_some, value]
  · have value : (n.natAbs : Int) = n := by omega
    have begins : ∀ c ∈ (Nat.toDigits 10 whole ++ behind).head?, c.isDigit = true := by
      obtain ⟨first, digits, run⟩ := List.exists_cons_of_ne_nil (Nat.toDigits_ne_nil (n := whole) (b := 10))
      rw [run]
      rintro c ⟨⟩
      exact Nat.isDigit_of_mem_toDigits (by decide) (by decide) (run ▸ List.mem_cons_self)
    rw [sign, if_neg negative, List.nil_append, read?_of_digit begins, unsigned, Option.map_some, value]

theorem read?_text (u : Unscaled) (scale : Nat) : read? (text u scale) = some (u.val, scale) := by
  rcases Nat.eq_zero_or_pos scale with rfl | positive
  · rw [text_whole, ← List.append_nil (Nat.toDigits 10 _)]
    refine read?_signed u.val ?_
    rw [readUnsigned?_digits _ (by simp), readBehind?, number_toDigits]
  by_cases small : scale ≤ maxDigits
  · have below : u.val.natAbs % 10 ^ scale < 10 ^ scale := Nat.mod_lt _ (Nat.pow_pos (by decide))
    rw [text_point u positive small]
    refine read?_signed u.val ?_
    rw [readUnsigned?_digits _ (by simp), readBehind?, if_pos (isNumeral_padded positive below), number_append,
      length_padded positive below, number_toDigits, number_padded, Nat.div_add_mod]
  · rw [text_exponent u (Nat.lt_of_not_le small)]
    refine read?_signed u.val ?_
    rw [readUnsigned?_digits _ (by simp), readBehind?, if_pos (isNumeral_toDigits scale),
      number_toDigits, number_toDigits]

/-! ### The plain text of a value -/

theorem toList_display (u : Unscaled) (scale : Nat) :
    (Value.decimal u scale).display.toList = text u scale := String.toList_ofList

theorem display_whole (u : Unscaled) : (Value.decimal u 0).display = toString u.val := by
  rw [← String.toList_inj, toList_display, text_whole, toList_toString]

theorem display_exponent (u : Unscaled) {scale : Nat} (large : maxDigits < scale) :
    (Value.decimal u scale).display = toString u.val ++ "E-" ++ toString scale := by
  rw [← String.toList_inj, toList_display, text_exponent u large, String.toList_append,
    String.toList_append, toList_toString, List.append_assoc, List.append_assoc]
  exact congrArg _ (congrArg _ (congrArg _ (congrArg _ Nat.toList_repr.symm)))

/-- **The text of a decimal is exact and unambiguous.**  It is read back as the unscaled integer and the
scale.  At scale zero it is the plain integer; up to the largest declared scale it is a minus sign if the
integer is negative, the whole digits, a point and exactly as many fraction digits as the scale says;
beyond that it is the integer with `E-` and the scale behind it.  No other decimal has the same text. -/
theorem text_exact (u : Unscaled) (scale : Nat) :
    read? (Value.decimal u scale).display.toList = some (u.val, scale) ∧
    (scale = 0 → (Value.decimal u scale).display = toString u.val) ∧
    (0 < scale → scale ≤ maxDigits → ∃ fraction,
      (Value.decimal u scale).display.toList =
        sign u.val ++ (Nat.toDigits 10 (u.val.natAbs / 10 ^ scale) ++ '.' :: fraction) ∧
      fraction.length = scale ∧ (∀ c ∈ fraction, c.isDigit = true) ∧
      number fraction = u.val.natAbs % 10 ^ scale) ∧
    (maxDigits < scale →
      (Value.decimal u scale).display = toString u.val ++ "E-" ++ toString scale) ∧
    ∀ v other, (Value.decimal u scale).display = (Value.decimal v other).display →
      u = v ∧ scale = other := by
  have back : ∀ u scale, read? (Value.decimal u scale).display.toList = some (u.val, scale) := by
    intro u scale
    rw [toList_display, read?_text]
  refine ⟨back u scale, ?_, ?_, fun large => display_exponent u large, ?_⟩
  · rintro rfl
    exact display_whole u
  · intro positive small
    have below : u.val.natAbs % 10 ^ scale < 10 ^ scale := Nat.mod_lt _ (Nat.pow_pos (by decide))
    refine ⟨padded scale (u.val.natAbs % 10 ^ scale), ?_, length_padded positive below,
      fun _ member => isDigit_padded member, number_padded _ _⟩
    rw [toList_display, text_point u positive small]
  · intro v other same
    have values := (back u scale).symm.trans ((congrArg (read? ·.toList) same).trans (back v other))
    injection values with pair
    injection pair with unscaled scales
    exact ⟨Signed.eq_of_val unscaled, scales⟩

example : (Value.decimal ⟨-5, by decide, by decide⟩ 3).display.toList = ['-', '0', '.', '0', '0', '5'] := by
  decide

end WideRow.Decimal
