import WideRow.Row.Tuple
import WideRow.Stream.Source

/-!
# Operators

An operator gives rows one at a time.  It is initialized, asked for the next row until there is none,
and closed.  Each of these is a step: a result, the operator afterwards, and what sources were asked
for meanwhile.

A bounded operator has a budget that every row it returns uses up, so asking it again and again comes
to an end; `collect` does so and keeps the rows.
-/

namespace WideRow

/-- The outcome of one step of something with state `ω`. -/
structure Step (ω α : Type) where
  result : Fallible α
  state : ω
  events : List Event

namespace Step

/-- The same step of something that contains the state. -/
def within {ω ω' α : Type} (step : Step ω α) (rebuild : ω → ω') : Step ω' α :=
  ⟨step.result, rebuild step.state, step.events⟩

/-- The step with earlier events in front. -/
def after {ω α : Type} (earlier : List Event) (step : Step ω α) : Step ω α :=
  { step with events := earlier ++ step.events }

/-- The number of rows in a result. -/
def rowsIn : Fallible (Option Tuple) → Nat
  | .ok (some _) => 1
  | _ => 0

/-- The number of rows that a step returns. -/
def rowCount {ω : Type} (step : Step ω (Option Tuple)) : Nat := rowsIn step.result

end Step

/-- Something that gives rows one at a time. -/
class Operator (ω : Type) where
  /-- Makes it ready. -/
  init : ω → Step ω Unit
  /-- The next row, if there is one. -/
  next : ω → Step ω (Option Tuple)
  /-- Gives up what it holds. -/
  close : ω → Step ω Unit

/-- An operator that comes to an end. -/
class Bounded (ω : Type) extends Operator ω where
  /-- How many rows it can still return. -/
  budget : ω → Nat
  /-- Initializing does not add to the budget. -/
  init_budget : ∀ state, budget (init state).state ≤ budget state
  /-- A step never adds to the budget, and a row is taken from it. -/
  next_budget : ∀ state, budget (next state).state + (next state).rowCount ≤ budget state

/-- The fault of an operator that is asked for rows before it is ready. -/
def notReady {ω α : Type} (state : ω) : Step ω α :=
  ⟨.error (.execution .notInitialized), state, []⟩

/-! ### Collecting rows -/

/-- The rows that something gives up to their end or a fault. -/
structure Collected (ω : Type) where
  rows : List Tuple
  /-- The fault that ends the rows, if there is one. -/
  fault : Option QueryFault
  state : ω
  events : List Event

/-- Asks for rows until there are no more or a fault comes.  Every row takes from a budget. -/
def collect {ω : Type} (next : ω → Step ω (Option Tuple)) (budget : ω → Nat)
    (law : ∀ state, budget (next state).state + (next state).rowCount ≤ budget state) (state : ω) :
    Collected ω :=
  let step := next state
  match _given : step.result with
  | .error fault => ⟨[], some fault, step.state, step.events⟩
  | .ok none => ⟨[], none, step.state, step.events⟩
  | .ok (some tuple) =>
    let others := collect next budget law step.state
    ⟨tuple :: others.rows, others.fault, others.state, step.events ++ others.events⟩
termination_by budget state
decreasing_by
  have cost := law state
  have one : (next state).rowCount = 1 := by
    simp only [Step.rowCount]
    rw [_given]
    rfl
  omega

/-- The rows of a bounded operator. -/
def Bounded.collect {ω : Type} [Bounded ω] (state : ω) : Collected ω :=
  WideRow.collect Operator.next Bounded.budget Bounded.next_budget state

end WideRow
