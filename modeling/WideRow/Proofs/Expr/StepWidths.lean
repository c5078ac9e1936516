import WideRow.Proofs.Number.WidthFold
import WideRow.Proofs.Number.Words

/-!
# Widths of the steps of a node

The fields of a width can be held in unsigned words of 32 bits.  The rules are then computed on signed
words of 64, in which differences may be below zero.  The fold on such words is the fold of the widths that
are held, and no step of it leaves its word.

* `Words.rule_eq`, `Words.steps_eq` : a rule and a fold on words;
* `Expr.stepsOf_formed` : the widths of the steps of a node.
-/

namespace WideRow

namespace Words

/-- A width whose fields are unsigned words of 32 bits. -/
structure HeldWidth where
  digits : Option UInt32
  scale : Option UInt32
  deriving DecidableEq

namespace HeldWidth

/-- The width that is held. -/
def toWidth (held : HeldWidth) : Width :=
  ⟨held.digits.map UInt32.toNat, held.scale.map UInt32.toNat⟩

/-- Both fields, when both are set. -/
def resolved? (held : HeldWidth) : Option (UInt32 × UInt32) := do
  let digits ← held.digits
  let scale ← held.scale
  some (digits, scale)

end HeldWidth

/-! ### The fold on words -/

/-- Digits and scale of a sum, on signed words of 64 bits. -/
def sumRule (leftDigits leftScale rightDigits rightScale : UInt32) :
    Except Stop (Signed 64 × Signed 64) := do
  let scale ← signed 64 (max leftScale.toNat rightScale.toNat)
  let leftWhole ← signed 64 (leftDigits.toNat - leftScale.toNat)
  let rightWhole ← signed 64 (rightDigits.toNat - rightScale.toNat)
  let total ← signed 64 (max leftWhole.val rightWhole.val + scale.val)
  let digits ← signed 64 (total.val + 1)
  return (digits, scale)

/-- Digits and scale of a product, on signed words of 64 bits. -/
def productRule (leftDigits leftScale rightDigits rightScale : UInt32) :
    Except Stop (Signed 64 × Signed 64) := do
  let digits ← signed 64 (leftDigits.toNat + rightDigits.toNat)
  let scale ← signed 64 (leftScale.toNat + rightScale.toNat)
  return (digits, scale)

/-- Digits and scale of a quotient, on signed words of 64 bits. -/
def quotientRule (leftDigits leftScale rightDigits rightScale : UInt32) :
    Except Stop (Signed 64 × Signed 64) := do
  let left ← signed 64 (38 - leftDigits.toNat)
  let spare ← signed 64 (left.val + leftScale.toNat)
  let places ← signed 64 (spare.val - rightScale.toNat)
  let scale ← signed 64 (min (max places.val 0) 38)
  let scaled ← signed 64 (scale.val + leftDigits.toNat)
  let whole ← signed 64 (scaled.val - leftScale.toNat)
  let digits ← signed 64 (whole.val + rightDigits.toNat)
  return (digits, scale)

/-- The rule of an operator on words. -/
def rule :
    ArithmeticOp → UInt32 → UInt32 → UInt32 → UInt32 → Except Stop (Signed 64 × Signed 64)
  | .add => sumRule
  | .subtract => sumRule
  | .multiply => productRule
  | .divide => quotientRule

/-- A signed word brought between zero and 38, as an unsigned word of 32 bits. -/
def clamp (n : Signed 64) : UInt32 :=
  if n.val < 0 then 0 else if 38 < n.val then 38 else UInt32.ofNat n.val.toNat

/-- One step of a fold on words. -/
def combine (op : ArithmeticOp) (folded next : HeldWidth) : Except Stop HeldWidth :=
  match folded.resolved?, next.resolved? with
  | some (leftDigits, leftScale), some (rightDigits, rightScale) => do
    let (digits, scale) ← rule op leftDigits leftScale rightDigits rightScale
    return ⟨some (clamp digits), some (clamp scale)⟩
  | _, _ => return ⟨some 38, none⟩

/-- The widths after each step of a fold on words. -/
def steps (op : ArithmeticOp) (folded : HeldWidth) : List HeldWidth → Except Stop (List HeldWidth)
  | [] => return []
  | next :: rest => do
    let width ← combine op folded next
    let later ← steps op width rest
    return width :: later

/-! ### No step leaves its word -/

theorem exists_signed {n : Int} (small : n.natAbs < 2 ^ 40) :
    ∃ x : Signed 64, signed 64 n = pure x ∧ x.val = n := by
  have half := Signed.half_sixtyFour
  have fits : Signed.InRange 64 n := by
    constructor <;> omega
  exact ⟨_, signed_of_inRange fits, rfl⟩

section Rules

variable (ld ls rd rs : UInt32)

theorem fields_lt :
    ld.toNat < 2 ^ 32 ∧ ls.toNat < 2 ^ 32 ∧ rd.toNat < 2 ^ 32 ∧ rs.toNat < 2 ^ 32 :=
  ⟨ld.toNat_lt, ls.toNat_lt, rd.toNat_lt, rs.toNat_lt⟩

theorem sumRule_eq : ∃ digits scale, sumRule ld ls rd rs = .ok (digits, scale) ∧
    Width.sumRule ld.toNat ls.toNat rd.toNat rs.toNat = (digits.val, scale.val) := by
  have fields := fields_lt ld ls rd rs
  obtain ⟨scale, scaleRun, scale_eq⟩ := exists_signed (n := max ls.toNat rs.toNat) (by omega)
  obtain ⟨left, leftRun, left_eq⟩ := exists_signed (n := ld.toNat - ls.toNat) (by omega)
  obtain ⟨right, rightRun, right_eq⟩ := exists_signed (n := rd.toNat - rs.toNat) (by omega)
  obtain ⟨total, totalRun, total_eq⟩ :=
    exists_signed (n := max left.val right.val + scale.val) (by omega)
  obtain ⟨digits, digitsRun, digits_eq⟩ := exists_signed (n := total.val + 1) (by omega)
  refine ⟨digits, scale, ?_, ?_⟩
  · rw [sumRule, scaleRun, pure_bind, leftRun, pure_bind, rightRun, pure_bind, totalRun, pure_bind,
      digitsRun]
    rfl
  · rw [Width.sumRule, digits_eq, total_eq, left_eq, right_eq, scale_eq]

theorem productRule_eq : ∃ digits scale, productRule ld ls rd rs = .ok (digits, scale) ∧
    Width.productRule ld.toNat ls.toNat rd.toNat rs.toNat = (digits.val, scale.val) := by
  have fields := fields_lt ld ls rd rs
  obtain ⟨digits, digitsRun, digits_eq⟩ := exists_signed (n := ld.toNat + rd.toNat) (by omega)
  obtain ⟨scale, scaleRun, scale_eq⟩ := exists_signed (n := ls.toNat + rs.toNat) (by omega)
  refine ⟨digits, scale, ?_, ?_⟩
  · rw [productRule, digitsRun, pure_bind, scaleRun]
    rfl
  · rw [Width.productRule, digits_eq, scale_eq]

theorem quotientRule_eq : ∃ digits scale, quotientRule ld ls rd rs = .ok (digits, scale) ∧
    Width.quotientRule ld.toNat ls.toNat rd.toNat rs.toNat = (digits.val, scale.val) := by
  have fields := fields_lt ld ls rd rs
  obtain ⟨left, leftRun, left_eq⟩ := exists_signed (n := 38 - ld.toNat) (by omega)
  obtain ⟨spare, spareRun, spare_eq⟩ := exists_signed (n := left.val + ls.toNat) (by omega)
  obtain ⟨places, placesRun, places_eq⟩ := exists_signed (n := spare.val - rs.toNat) (by omega)
  obtain ⟨scale, scaleRun, scale_eq⟩ := exists_signed (n := min (max places.val 0) 38) (by omega)
  obtain ⟨scaled, scaledRun, scaled_eq⟩ := exists_signed (n := scale.val + ld.toNat) (by omega)
  obtain ⟨whole, wholeRun, whole_eq⟩ := exists_signed (n := scaled.val - ls.toNat) (by omega)
  obtain ⟨digits, digitsRun, digits_eq⟩ := exists_signed (n := whole.val + rd.toNat) (by omega)
  refine ⟨digits, scale, ?_, ?_⟩
  · rw [quotientRule, leftRun, pure_bind, spareRun, pure_bind, placesRun, pure_bind, scaleRun,
      pure_bind, scaledRun, pure_bind, wholeRun, pure_bind, digitsRun]
    rfl
  · rw [digits_eq, whole_eq, scaled_eq, scale_eq, places_eq, spare_eq, left_eq]
    rfl

/-- Fields of 32 bits leave so much room in 64 bits that no step of a rule leaves its word. -/
theorem rule_eq (op : ArithmeticOp) : ∃ digits scale, rule op ld ls rd rs = .ok (digits, scale) ∧
    Width.rule op ld.toNat ls.toNat rd.toNat rs.toNat = (digits.val, scale.val) := by
  cases op with
  | add => exact sumRule_eq ld ls rd rs
  | subtract => exact sumRule_eq ld ls rd rs
  | multiply => exact productRule_eq ld ls rd rs
  | divide => exact quotientRule_eq ld ls rd rs

end Rules

theorem toNat_clamp (n : Signed 64) : (clamp n).toNat = Width.clamp n.val := by
  unfold clamp Width.clamp Decimal.maxDigits
  split_ifs with negative large
  · show 0 = _
    omega
  · show 38 = _
    omega
  · have small : n.val.toNat < UInt32.size := by
      have size : UInt32.size = 4294967296 := rfl
      omega
    rw [UInt32.toNat_ofNat_of_lt' small]
    omega

theorem resolved?_toWidth (held : HeldWidth) : held.toWidth.resolved? =
    held.resolved?.map fun fields => (fields.1.toNat, fields.2.toNat) := by
  obtain ⟨digits, scale⟩ := held
  cases digits with
  | none => rfl
  | some digits =>
    cases scale with
    | none => rfl
    | some scale => rfl

theorem combine_eq (op : ArithmeticOp) (folded next : HeldWidth) :
    ∃ result, combine op folded next = .ok result ∧
      result.toWidth = Width.combine op folded.toWidth next.toWidth := by
  unfold combine Width.combine
  rw [resolved?_toWidth, resolved?_toWidth]
  cases folded.resolved? with
  | none => exact ⟨_, rfl, rfl⟩
  | some left =>
    cases next.resolved? with
    | none => exact ⟨_, rfl, rfl⟩
    | some right =>
      obtain ⟨digits, scale, run, same⟩ := rule_eq left.1 left.2 right.1 right.2 op
      refine ⟨⟨some (clamp digits), some (clamp scale)⟩, ?_, ?_⟩
      · dsimp only
        rw [run]
        rfl
      · simp only [Option.map_some, same, HeldWidth.toWidth, toNat_clamp]
        rfl

/-- A fold on words is the fold of the widths that are held, whatever fields they have. -/
theorem steps_eq (op : ArithmeticOp) (folded : HeldWidth) (operands : List HeldWidth) :
    ∃ results, steps op folded operands = .ok results ∧
      results.map HeldWidth.toWidth =
        Width.steps op folded.toWidth (operands.map HeldWidth.toWidth) := by
  induction operands generalizing folded with
  | nil => exact ⟨[], rfl, rfl⟩
  | cons next rest ih =>
    obtain ⟨width, step, widthSame⟩ := combine_eq op folded next
    obtain ⟨later, run, laterSame⟩ := ih width
    refine ⟨width :: later, ?_, ?_⟩
    · simp only [steps, step, run, bind, Except.bind]
      rfl
    · rw [List.map_cons, List.map_cons, Width.steps, widthSame, laterSame, widthSame]

end Words

namespace Expr

/-- **Widths stay well-formed along a fold.**  Take an operator and operands of any widths.  There is a
step for every operand but the first.  The width after it is saturated exactly if one of the operands up
to there lacks a field, and else has both fields, each at most 38.  If the scales of those operands are
within their digits, so is its scale.  If the widths of the operands are held in words, the fold on words
gives the same widths, and no step of it leaves its word. -/
theorem stepsOf_formed (op : ArithmeticOp) (first : Width) (rest : List Width) :
    (stepsOf op (first :: rest)).length = rest.length ∧
    (∀ i width, (stepsOf op (first :: rest))[i]? = some width →
      Width.FormedFrom ((first :: rest).take (i + 2)) width) ∧
    ∀ (start : Words.HeldWidth) (others : List Words.HeldWidth),
      start.toWidth = first → others.map Words.HeldWidth.toWidth = rest →
        ∃ results, Words.steps op start others = .ok results ∧
          results.map Words.HeldWidth.toWidth = stepsOf op (first :: rest) := by
  refine ⟨Width.steps_length op first rest, fun i width step => ?_, ?_⟩
  · exact (Width.carries_first first).steps op step
  · rintro start others rfl rfl
    exact Words.steps_eq op start others

/-- A dividend with all the digits that 32 bits can count, so that the places left for the quotient are
below zero, and then an operand without a scale. -/
theorem stepsOf_formed_wideDividend :
    stepsOf .divide [Width.fixed 4294967295 0, Width.fixed 3 2, ⟨some 10, none⟩, Width.fixed 5 2] =
        [Width.fixed 38 0, Width.saturated, Width.saturated] ∧
      Width.FormedFrom [Width.fixed 4294967295 0, Width.fixed 3 2] (Width.fixed 38 0) ∧
      (∀ operand ∈ [Width.fixed 4294967295 0, Width.fixed 3 2], operand.ScaleWithin) ∧
      (Width.fixed 38 0).ScaleWithin ∧
      Width.FormedFrom
        [Width.fixed 4294967295 0, Width.fixed 3 2, ⟨some 10, none⟩, Width.fixed 5 2]
        Width.saturated ∧
      ∃ results, Words.steps .divide ⟨some 4294967295, some 0⟩
          [⟨some 3, some 2⟩, ⟨some 10, none⟩, ⟨some 5, some 2⟩] = .ok results ∧
        results.map Words.HeldWidth.toWidth =
          [Width.fixed 38 0, Width.saturated, Width.saturated] := by
  obtain ⟨_, formed, words⟩ := stepsOf_formed .divide (Width.fixed 4294967295 0)
    [Width.fixed 3 2, ⟨some 10, none⟩, Width.fixed 5 2]
  have first := formed 0 (Width.fixed 38 0) (by decide)
  have last := formed 2 Width.saturated (by decide)
  have within : ∀ operand ∈ [Width.fixed 4294967295 0, Width.fixed 3 2], operand.ScaleWithin := by
    refine List.forall_mem_cons.mpr ⟨?_, List.forall_mem_singleton.mpr ?_⟩
    · exact Width.scaleWithin_fixed.mpr (by decide)
    · exact Width.scaleWithin_fixed.mpr (by decide)
  obtain ⟨results, run, same⟩ := words ⟨some 4294967295, some 0⟩
    [⟨some 3, some 2⟩, ⟨some 10, none⟩, ⟨some 5, some 2⟩] (by decide) (by decide)
  exact ⟨by decide, first, within, first.scaleWithin within, last, results, run,
    same.trans (by decide)⟩

end Expr

end WideRow
