import WideRow.Stream.Limit
import WideRow.Stream.Merge
import WideRow.Stream.Selection

/-!
# Stages

One layer of a pipeline over inputs of one kind: an input passed through, a selection, a limit or a
merge.  Layers are stacked to pipelines.
-/

namespace WideRow

/-- One layer of a pipeline. -/
inductive Stage (ι : Type) where
  | pass (input : ι)
  | selection (selection : Selection ι)
  | limit (limit : Limit ι)
  | merge (merge : Merge ι)

namespace Stage

variable {ι : Type} [Bounded ι]

/-- Makes the layer ready. -/
def init : Stage ι → Step (Stage ι) Unit
  | pass input => (Operator.init input).within pass
  | selection s => (Operator.init s).within selection
  | limit l => (Operator.init l).within limit
  | merge m => (Operator.init m).within merge

/-- The next row. -/
def next : Stage ι → Step (Stage ι) (Option Tuple)
  | pass input => (Operator.next input).within pass
  | selection s => (Operator.next s).within selection
  | limit l => (Operator.next l).within limit
  | merge m => (Operator.next m).within merge

/-- Closes the layer. -/
def close : Stage ι → Step (Stage ι) Unit
  | pass input => (Operator.close input).within pass
  | selection s => (Operator.close s).within selection
  | limit l => (Operator.close l).within limit
  | merge m => (Operator.close m).within merge

/-- The rows that the layer can still give. -/
def budget : Stage ι → Nat
  | pass input => Bounded.budget input
  | selection s => Bounded.budget s
  | limit l => Bounded.budget l
  | merge m => Bounded.budget m

theorem init_budget (stage : Stage ι) : budget (init stage).state ≤ budget stage := by
  cases stage with
  | pass input => exact Bounded.init_budget input
  | selection s => exact Bounded.init_budget s
  | limit l => exact Bounded.init_budget l
  | merge m => exact Bounded.init_budget m

theorem next_budget (stage : Stage ι) :
    budget (next stage).state + (next stage).rowCount ≤ budget stage := by
  cases stage with
  | pass input => exact Bounded.next_budget input
  | selection s => exact Bounded.next_budget s
  | limit l => exact Bounded.next_budget l
  | merge m => exact Bounded.next_budget m

instance : Bounded (Stage ι) where
  init := init
  next := next
  close := close
  budget := budget
  init_budget := init_budget
  next_budget := next_budget

end Stage

end WideRow
