import WideRow.Proofs.Number.Width

/-!
# Widths along a fold

The widths of operands are folded from the left.  An operand that lacks a field makes the width after its
step `saturated`, and every later one.  Until then both fields are set and within what is allowed, however
large the fields of the operands are, and scales that are within their digits stay so.

* `FormedFrom` : what holds of the width after a step, and of the operands up to there;
* `Carries.combine`, `Carries.steps` : one step, and the fold from any step on.
-/

namespace WideRow

namespace Width

/-! ### Widths that lack a field -/

/-- The digits or the scale are missing. -/
def Incomplete (width : Width) : Prop := width.digits = none ∨ width.scale = none

theorem incomplete_saturated : saturated.Incomplete := .inr rfl

theorem not_incomplete_fixed (digits scale : Nat) : ¬ (fixed digits scale).Incomplete := by
  rintro (missing | missing)
  · cases missing
  · cases missing

theorem incomplete_or_fixed (width : Width) :
    width.Incomplete ∨ ∃ digits scale, width = fixed digits scale := by
  obtain ⟨digits, scale⟩ := width
  cases digits with
  | none => exact .inl (.inl rfl)
  | some digits =>
    cases scale with
    | none => exact .inl (.inr rfl)
    | some scale => exact .inr ⟨digits, scale, rfl⟩

theorem resolved?_of_incomplete {width : Width} (incomplete : width.Incomplete) :
    width.resolved? = none := by
  obtain ⟨digits, scale⟩ := width
  rcases incomplete with missing | missing
  · cases missing
    rfl
  · cases missing
    cases digits with
    | none => rfl
    | some digits => rfl

theorem combine_of_incomplete {op : ArithmeticOp} {a b : Width}
    (incomplete : a.Incomplete ∨ b.Incomplete) : combine op a b = saturated := by
  unfold combine
  rcases incomplete with left | right
  · rw [resolved?_of_incomplete left]
  · rw [resolved?_of_incomplete right]
    cases a.resolved? with
    | none => rfl
    | some fields => rfl

/-- A step on two full widths gives a full width, cut to what is allowed. -/
theorem combine_of_complete (op : ArithmeticOp) {a b : Width}
    (complete : ¬ (a.Incomplete ∨ b.Incomplete)) :
    ∃ digits scale, combine op a b = fixed digits scale ∧ digits ≤ 38 ∧ scale ≤ 38 := by
  obtain ⟨left, right⟩ := not_or.mp complete
  obtain ⟨ld, ls, rfl⟩ := (incomplete_or_fixed a).resolve_left left
  obtain ⟨rd, rs, rfl⟩ := (incomplete_or_fixed b).resolve_left right
  exact ⟨_, _, rfl, clamp_le _, clamp_le _⟩

theorem combine_eq_saturated {op : ArithmeticOp} {a b : Width} :
    combine op a b = saturated ↔ a.Incomplete ∨ b.Incomplete := by
  refine ⟨fun same => ?_, combine_of_incomplete⟩
  by_contra complete
  obtain ⟨digits, scale, full, _⟩ := combine_of_complete op complete
  have incomplete : (fixed digits scale).Incomplete := by
    rw [← full, same]
    exact incomplete_saturated
  exact not_incomplete_fixed digits scale incomplete

/-! ### The fold -/

/-- The width after a step, for the operands that have been folded by then. -/
structure FormedFrom (operands : List Width) (width : Width) : Prop where
  saturated_iff : width = saturated ↔ ∃ operand ∈ operands, operand.Incomplete
  limited : (¬ ∃ operand ∈ operands, operand.Incomplete) →
    ∃ digits scale, width = fixed digits scale ∧ digits ≤ 38 ∧ scale ≤ 38
  scaleWithin : (∀ operand ∈ operands, operand.ScaleWithin) → width.ScaleWithin

/-- What a fold carries from one step to the next.  It is less than what holds after a step, because the
first operand is as it is: neither cut nor, if it lacks a field, saturated. -/
structure Carries (operands : List Width) (folded : Width) : Prop where
  incomplete_iff : folded.Incomplete ↔ ∃ operand ∈ operands, operand.Incomplete
  scaleWithin : (∀ operand ∈ operands, operand.ScaleWithin) → folded.ScaleWithin

theorem carries_first (first : Width) : Carries [first] first where
  incomplete_iff := by simp only [List.mem_singleton, exists_eq_left]
  scaleWithin each := each first (List.mem_singleton_self first)

variable {operands : List Width} {folded : Width}

theorem FormedFrom.carries (formed : FormedFrom operands folded) : Carries operands folded where
  incomplete_iff := by
    constructor
    · intro incomplete
      by_contra complete
      obtain ⟨digits, scale, full, _⟩ := formed.limited complete
      rw [full] at incomplete
      exact not_incomplete_fixed digits scale incomplete
    · intro incomplete
      rw [formed.saturated_iff.mpr incomplete]
      exact incomplete_saturated
  scaleWithin := formed.scaleWithin

/-- One step of a fold. -/
theorem Carries.combine (carries : Carries operands folded) (op : ArithmeticOp) (next : Width) :
    FormedFrom (operands ++ [next]) (combine op folded next) := by
  have incomplete_iff : (folded.Incomplete ∨ next.Incomplete) ↔
      ∃ operand ∈ operands ++ [next], operand.Incomplete := by
    rw [carries.incomplete_iff]
    simp only [List.mem_append, List.mem_singleton, or_and_right, exists_or, exists_eq_left]
  refine ⟨?_, ?_, ?_⟩
  · rw [combine_eq_saturated, incomplete_iff]
  · rw [← incomplete_iff]
    exact combine_of_complete op
  · intro each
    obtain ⟨before, last⟩ := List.forall_mem_append.mp each
    exact scaleWithin_combine (carries.scaleWithin before) (last next (List.mem_singleton_self next))

/-- The fold from any step on: what it carries there is enough for the widths of all later steps. -/
theorem Carries.steps (carries : Carries operands folded) (op : ArithmeticOp) {rest : List Width}
    {i : Nat} {width : Width} (step : (steps op folded rest)[i]? = some width) :
    FormedFrom (operands ++ rest.take (i + 1)) width := by
  induction rest generalizing operands folded i with
  | nil => cases step
  | cons next rest ih =>
    have formed := carries.combine op next
    rw [Width.steps] at step
    cases i with
    | zero =>
      cases step
      exact formed
    | succ i =>
      -- the later steps start from this width, with one operand more behind them
      have later := ih formed.carries step
      rwa [List.append_assoc] at later

end Width

end WideRow
