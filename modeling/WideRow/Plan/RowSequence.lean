import WideRow.Stream.Operator

/-!
# Row sequences

A sequence of rows that can be gone through once.  Its operator is initialized when the first row is
asked for and closed at the end of the rows, after a fault, or when a running sequence is dropped.
After the end there are no more rows; after a fault every further row is refused.

A sequence may begin with a fault, which is reported in place of its first row.
-/

namespace WideRow

/-- Where a sequence stands.  An operator that is done with stays, closed. -/
inductive RowSequence (ω : Type) where
  /-- Not begun, with no operator and a fault to report. -/
  | refused (fault : QueryFault)
  /-- Not begun. -/
  | waiting (root : ω)
  | running (root : ω)
  | finished (root : ω)
  | failed (root : Option ω)

namespace RowSequence

variable {ω : Type} [Operator ω]

/-- Closes the operator after a fault, which stays the result. -/
def fail (fault : QueryFault) (root : ω) : Step (RowSequence ω) (Option Tuple) :=
  let closed := Operator.close root
  ⟨.error fault, .failed (some closed.state), closed.events⟩

/-- The next row of an operator that is ready. -/
def advance (root : ω) : Step (RowSequence ω) (Option Tuple) :=
  let step := Operator.next root
  match step.result with
  | .ok (some tuple) => ⟨.ok (some tuple), .running step.state, step.events⟩
  | .ok none =>
    let closed := Operator.close step.state
    ⟨.ok none, .finished closed.state, step.events ++ closed.events⟩
  | .error fault => (fail fault step.state).after step.events

/-- The next row. -/
def next : RowSequence ω → Step (RowSequence ω) (Option Tuple)
  | refused fault => ⟨.error fault, .failed none, []⟩
  | waiting root =>
    let step := Operator.init root
    match step.result with
    | .ok () => (advance step.state).after step.events
    | .error fault => (fail fault step.state).after step.events
  | running root => advance root
  | finished root => ⟨.ok none, .finished root, []⟩
  | failed root => ⟨.error .aborted, .failed root, []⟩

/-- Lets go of the sequence: closes the operator if it is running. -/
def drop : RowSequence ω → Step (RowSequence ω) Unit
  | running root =>
    let closed := Operator.close root
    ⟨.ok (), .finished closed.state, closed.events⟩
  | other => ⟨.ok (), other, []⟩

/-! ### Going through all rows -/

/-- The rows that a sequence can still give. -/
def budget {ω : Type} [Bounded ω] : RowSequence ω → Nat
  | refused _ => 0
  | waiting root => Bounded.budget root
  | running root => Bounded.budget root
  | finished _ => 0
  | failed _ => 0

theorem advance_budget {ω : Type} [Bounded ω] (root : ω) :
    budget (advance root).state + (advance root).rowCount ≤ Bounded.budget root := by
  have law := Bounded.next_budget root
  unfold advance
  cases given : (Operator.next root).result with
  | error fault =>
    simp only [given]
    exact Nat.zero_le _
  | ok row =>
    cases row with
    | none =>
      simp only [given]
      exact Nat.zero_le _
    | some tuple =>
      simp only [Step.rowCount, given] at law ⊢
      exact law

theorem next_budget {ω : Type} [Bounded ω] (rows : RowSequence ω) :
    budget (next rows).state + (next rows).rowCount ≤ budget rows := by
  cases rows with
  | refused fault => exact Nat.le_refl _
  | waiting root =>
    have ready := Bounded.init_budget root
    have law := advance_budget (Operator.init root).state
    unfold next
    cases given : (Operator.init root).result with
    | error fault =>
      simp only [given]
      exact Nat.zero_le _
    | ok _ =>
      simp only [given, Step.after, Step.rowCount, budget] at *
      omega
  | running root => exact advance_budget root
  | finished root => exact Nat.le_refl _
  | failed root => exact Nat.le_refl _

/-- The rows up to the end of the sequence or a fault. -/
def collect {ω : Type} [Bounded ω] (rows : RowSequence ω) : Collected (RowSequence ω) :=
  WideRow.collect next budget next_budget rows

end RowSequence

end WideRow
