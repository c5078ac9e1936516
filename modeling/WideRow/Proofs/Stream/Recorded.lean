import WideRow.Stream.Operator

/-!
# Recording what an operator is asked for

An operator with the calls that have been made to it and what came of them.  Each step is that of the
operator itself, so a record shows what an operator has given without changing it.
-/

namespace WideRow

/-- A call to an operator and what came of it. -/
inductive Call where
  | init (result : Fallible Unit)
  | next (result : Fallible (Option Tuple))
  | close (result : Fallible Unit)

namespace Call

/-- Whether the call makes the operator ready. -/
def isInit : Call → Bool
  | init _ => true
  | _ => false

/-- Whether the call closes the operator. -/
def isClose : Call → Bool
  | close _ => true
  | _ => false

end Call

/-- An operator and the calls made to it so far. -/
structure Recorded (ω : Type) where
  operator : ω
  calls : List Call

namespace Recorded

variable {ω : Type}

/-- An operator that has not been called. -/
def fresh (operator : ω) : Recorded ω := ⟨operator, []⟩

/-- Adds the call of a step, with its result, to earlier calls. -/
def note {α : Type} (calls : List Call) (call : Fallible α → Call) (step : Step ω α) :
    Step (Recorded ω) α :=
  step.within fun operator => ⟨operator, calls ++ [call step.result]⟩

instance [Operator ω] : Operator (Recorded ω) where
  init recorded := note recorded.calls .init (Operator.init recorded.operator)
  next recorded := note recorded.calls .next (Operator.next recorded.operator)
  close recorded := note recorded.calls .close (Operator.close recorded.operator)

theorem init_operator [Operator ω] (recorded : Recorded ω) :
    Operator.init recorded.operator = (Operator.init recorded).within operator := rfl

theorem next_operator [Operator ω] (recorded : Recorded ω) :
    Operator.next recorded.operator = (Operator.next recorded).within operator := rfl

end Recorded

end WideRow
