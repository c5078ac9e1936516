import WideRow.Stream.Operator

/-!
# Limits

A limit returns the first rows of its input, as many as it allows, and then no more without asking the
input.  Initializing it again starts the count anew.
-/

namespace WideRow

/-- The first rows of an input. -/
structure Limit (ι : Type) where
  input : ι
  most : Nat
  returned : Nat
  ready : Bool

namespace Limit

variable {ι : Type}

/-- Makes the input ready, then the limit. -/
def init [Operator ι] (limit : Limit ι) : Step (Limit ι) Unit :=
  let step := Operator.init limit.input
  match step.result with
  | .ok () => step.within fun input => { limit with input, returned := 0, ready := true }
  | .error _ => step.within fun input => { limit with input }

/-- The next row, while the limit allows one. -/
def next [Operator ι] (limit : Limit ι) : Step (Limit ι) (Option Tuple) :=
  if !limit.ready then notReady limit
  else if limit.most ≤ limit.returned then ⟨.ok none, limit, []⟩
  else
    let step := Operator.next limit.input
    step.within fun input => { limit with input, returned := limit.returned + step.rowCount }

/-- Closes the input. -/
def close [Operator ι] (limit : Limit ι) : Step (Limit ι) Unit :=
  (Operator.close limit.input).within fun input => { limit with input, ready := false }

theorem init_budget [Bounded ι] (limit : Limit ι) :
    Bounded.budget (init limit).state.input ≤ Bounded.budget limit.input := by
  have law := Bounded.init_budget limit.input
  unfold init
  simp only
  split <;> exact law

theorem next_budget [Bounded ι] (limit : Limit ι) :
    Bounded.budget (next limit).state.input + (next limit).rowCount ≤
      Bounded.budget limit.input := by
  unfold next
  split
  · simp only [notReady, Step.rowCount, Step.rowsIn]; omega
  split
  · simp only [Step.rowCount, Step.rowsIn]; omega
  · exact Bounded.next_budget limit.input

instance [Bounded ι] : Bounded (Limit ι) where
  init := init
  next := next
  close := close
  budget limit := Bounded.budget limit.input
  init_budget := init_budget
  next_budget := next_budget

end Limit

end WideRow
