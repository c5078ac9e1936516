import WideRow.Stream.Scan
import WideRow.Stream.Stage

/-!
# Pipes

A pipe is a tree of operators over scans, stacked as layers: a pipe of depth zero is a scan, a deeper
one is a stage over pipes of one layer less.  A shallow pipe is raised to a greater depth by stages that
pass their input through, so trees of any shape can be built.
-/

namespace WideRow

/-- A tree of operators of a given depth. -/
def Pipe : Nat → Type
  | 0 => Scan
  | depth + 1 => Stage (Pipe depth)

namespace Pipe

/-- Pipes of every depth are operators. -/
@[reducible] def bounded : (depth : Nat) → Bounded (Pipe depth)
  | 0 => inferInstanceAs (Bounded Scan)
  | depth + 1 =>
    have := bounded depth
    inferInstanceAs (Bounded (Stage (Pipe depth)))

instance (depth : Nat) : Bounded (Pipe depth) := bounded depth

/-- The same pipe with more layers. -/
def raise {depth : Nat} (pipe : Pipe depth) : (layers : Nat) → Pipe (depth + layers)
  | 0 => pipe
  | layers + 1 => Stage.pass (raise pipe layers)

/-- The rows that a pipe of depth zero, or the scan it passes through, has returned. -/
def rowsReturned? : (depth : Nat) → Pipe depth → Option Nat
  | 0, scan => some (Scan.rowsReturned scan)
  | depth + 1, stage =>
    match (stage : Stage (Pipe depth)) with
    | .pass input => rowsReturned? depth input
    | _ => none

/-- The predicate of a pipe that is a selection. -/
def predicate? : (depth : Nat) → Pipe depth → Option Expr
  | 0, _ => none
  | depth + 1, stage =>
    match (stage : Stage (Pipe depth)) with
    | .pass input => predicate? depth input
    | .selection s => some s.predicate
    | _ => none

end Pipe

/-- A tree of operators of any depth. -/
structure Pipeline where
  depth : Nat
  pipe : Pipe depth

namespace Pipeline

/-- A single scan. -/
def ofScan (scan : Scan) : Pipeline := ⟨0, scan⟩

/-- The rows of a pipeline that satisfy a predicate. -/
def select (input : Pipeline) (predicate : Expr) : Pipeline :=
  ⟨input.depth + 1, Stage.selection ⟨input.pipe, predicate, false⟩⟩

/-- The first rows of a pipeline. -/
def limit (input : Pipeline) (most : Nat) : Pipeline :=
  ⟨input.depth + 1, Stage.limit ⟨input.pipe, most, 0, false⟩⟩

/-- The pipe of a pipeline, raised to a depth that it does not exceed. -/
def atDepth (pipeline : Pipeline) (depth : Nat) (enough : pipeline.depth ≤ depth) : Pipe depth :=
  cast (congrArg Pipe (Nat.add_sub_of_le enough)) (Pipe.raise pipeline.pipe (depth - pipeline.depth))

/-- The greatest depth of some pipelines. -/
def greatestDepth (inputs : List Pipeline) : Nat :=
  inputs.foldr (fun input depth => max input.depth depth) 0

theorem depth_le_greatestDepth {inputs : List Pipeline} {input : Pipeline}
    (member : input ∈ inputs) : input.depth ≤ greatestDepth inputs := by
  induction inputs with
  | nil => contradiction
  | cons first rest ih =>
    simp only [greatestDepth, List.foldr_cons] at *
    cases List.mem_cons.mp member with
    | inl here => rw [here]; omega
    | inr later =>
      have := ih later
      omega

/-- The rows of some pipelines in the order of their keys. -/
def merge (inputs : List Pipeline) : Pipeline :=
  let lanes := inputs.attach.map fun ⟨input, member⟩ =>
    (⟨input.atDepth (greatestDepth inputs) (depth_le_greatestDepth member), none⟩ :
      Lane (Pipe (greatestDepth inputs)))
  ⟨greatestDepth inputs + 1, Stage.merge ⟨lanes, false⟩⟩

/-- A step of the pipe as a step of the pipeline. -/
def ofStep {α : Type} (depth : Nat) (step : Step (Pipe depth) α) : Step Pipeline α :=
  step.within fun pipe => ⟨depth, pipe⟩

/-- Makes the pipeline ready. -/
def init (pipeline : Pipeline) : Step Pipeline Unit :=
  ofStep pipeline.depth (Operator.init pipeline.pipe)

/-- The next row. -/
def next (pipeline : Pipeline) : Step Pipeline (Option Tuple) :=
  ofStep pipeline.depth (Operator.next pipeline.pipe)

/-- Closes the pipeline. -/
def close (pipeline : Pipeline) : Step Pipeline Unit :=
  ofStep pipeline.depth (Operator.close pipeline.pipe)

instance : Bounded Pipeline where
  init := init
  next := next
  close := close
  budget pipeline := Bounded.budget pipeline.pipe
  init_budget pipeline := Bounded.init_budget pipeline.pipe
  next_budget pipeline := Bounded.next_budget pipeline.pipe

/-- How many rows the scan has returned, if the pipeline is a scan. -/
def rowsReturned? (pipeline : Pipeline) : Option Nat :=
  Pipe.rowsReturned? pipeline.depth pipeline.pipe

/-- The predicate, if the pipeline is a selection. -/
def predicate? (pipeline : Pipeline) : Option Expr :=
  Pipe.predicate? pipeline.depth pipeline.pipe

end Pipeline

end WideRow
