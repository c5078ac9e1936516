import WideRow.Expr.Evaluate
import WideRow.Stream.Operator

/-!
# Selections

A selection returns the rows of its input that satisfy a predicate.  A row on which the predicate fails
is lost and the fault is returned in its place.
-/

namespace WideRow

/-- The rows of an input that satisfy a predicate. -/
structure Selection (ι : Type) where
  input : ι
  predicate : Expr
  ready : Bool

namespace Selection

variable {ι : Type} [Bounded ι]

/-- Takes rows from an input up to the first that satisfies the predicate. -/
def advance (predicate : Expr) (input : ι) : Step ι (Option Tuple) :=
  let step := Operator.next input
  match _given : step.result with
  | .error _ => step
  | .ok none => step
  | .ok (some tuple) =>
    match predicate.evaluatePredicate tuple.row with
    | .error fault => ⟨.error fault, step.state, step.events⟩
    | .ok true => step
    | .ok false => (advance predicate step.state).after step.events
termination_by Bounded.budget input
decreasing_by
  have law := Bounded.next_budget input
  have one : (Operator.next input).rowCount = 1 := by
    simp only [Step.rowCount]
    rw [_given]
    rfl
  omega

/-- Makes the input ready, then the selection. -/
def init (selection : Selection ι) : Step (Selection ι) Unit :=
  let step := Operator.init selection.input
  match step.result with
  | .ok () => step.within fun input => { selection with input, ready := true }
  | .error _ => step.within fun input => { selection with input }

/-- The next row that satisfies the predicate. -/
def next (selection : Selection ι) : Step (Selection ι) (Option Tuple) :=
  if !selection.ready then notReady selection
  else (advance selection.predicate selection.input).within fun input => { selection with input }

/-- Closes the input. -/
def close (selection : Selection ι) : Step (Selection ι) Unit :=
  (Operator.close selection.input).within fun input => { selection with input, ready := false }

theorem init_budget (selection : Selection ι) :
    Bounded.budget (init selection).state.input ≤ Bounded.budget selection.input := by
  have law := Bounded.init_budget selection.input
  unfold init
  simp only
  split <;> exact law

theorem advance_budget (predicate : Expr) (input : ι) :
    Bounded.budget (advance predicate input).state + (advance predicate input).rowCount ≤
      Bounded.budget input := by
  fun_induction advance predicate input with
  | case1 input step fault given => exact Bounded.next_budget input
  | case2 input step given => exact Bounded.next_budget input
  | case3 input step tuple given fault failed =>
    have law : Bounded.budget step.state + step.rowCount ≤ Bounded.budget input :=
      Bounded.next_budget input
    simp only [Step.rowCount, Step.rowsIn]
    omega
  | case4 input step tuple given kept => exact Bounded.next_budget input
  | case5 input step tuple given dropped ih =>
    have law : Bounded.budget step.state + step.rowCount ≤ Bounded.budget input :=
      Bounded.next_budget input
    simp only [Step.after, Step.rowCount] at *
    omega

theorem next_budget (selection : Selection ι) :
    Bounded.budget (next selection).state.input + (next selection).rowCount ≤
      Bounded.budget selection.input := by
  unfold next
  split
  · simp only [notReady, Step.rowCount, Step.rowsIn]; omega
  · exact advance_budget selection.predicate selection.input

instance : Bounded (Selection ι) where
  init := init
  next := next
  close := close
  budget selection := Bounded.budget selection.input
  init_budget := init_budget
  next_budget := next_budget

end Selection

end WideRow
