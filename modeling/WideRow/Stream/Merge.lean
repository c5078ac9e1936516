import WideRow.Stream.Operator

/-!
# Merges

A merge returns the rows of several inputs in the order of their keys, each input giving its rows in
that order.  It holds the next row of every input, returns the least of them, that of the earlier input
if two are equal, and replaces it by the next row of the same input.  The row is lost if the input
fails then.
-/

namespace WideRow

/-- An input of a merge and its next row, if it has one. -/
structure Lane (ι : Type) where
  input : ι
  head : Option Tuple

/-- The rows of several inputs in the order of their keys. -/
structure Merge (ι : Type) where
  lanes : List (Lane ι)
  ready : Bool

namespace Merge

variable {ι : Type}

/-- The lane with the least head, and the lanes around it. -/
structure Choice (ι : Type) where
  before : List (Lane ι)
  row : Tuple
  input : ι
  after : List (Lane ι)

/-- Chooses the lane with the least head, the earliest of equal ones. -/
def choose : List (Lane ι) → Option (Choice ι)
  | [] => none
  | lane :: rest =>
    match lane.head, choose rest with
    | none, none => none
    | none, some choice => some { choice with before := lane :: choice.before }
    | some row, none => some ⟨[], row, lane.input, rest⟩
    | some row, some choice =>
      if compare choice.row.key row.key = .lt then
        some { choice with before := lane :: choice.before }
      else some ⟨[], row, lane.input, rest⟩

/-- The row that a step has given, as the head of a lane. -/
def headOf (step : Step ι (Option Tuple)) : Option Tuple :=
  match step.result with
  | .ok row => row
  | .error _ => none

/-- Makes inputs ready, in order, up to the first that fails. -/
def initAll [Operator ι] : List (Lane ι) → Step (List (Lane ι)) Unit
  | [] => ⟨.ok (), [], []⟩
  | lane :: rest =>
    let step := Operator.init lane.input
    let lane := { lane with input := step.state }
    match step.result with
    | .error fault => ⟨.error fault, lane :: rest, step.events⟩
    | .ok () => ((initAll rest).within fun rest => lane :: rest).after step.events

/-- Takes the first row of every input, in order, up to the first that fails. -/
def pullAll [Operator ι] : List (Lane ι) → Step (List (Lane ι)) Unit
  | [] => ⟨.ok (), [], []⟩
  | lane :: rest =>
    let step := Operator.next lane.input
    let lane : Lane ι := ⟨step.state, headOf step⟩
    match step.result with
    | .error fault => ⟨.error fault, lane :: rest, step.events⟩
    | .ok _ => ((pullAll rest).within fun rest => lane :: rest).after step.events

/-- Closes every input; the first fault is the result. -/
def closeAll [Operator ι] : List (Lane ι) → Step (List (Lane ι)) Unit
  | [] => ⟨.ok (), [], []⟩
  | lane :: rest =>
    let step := Operator.close lane.input
    let lane := { lane with input := step.state }
    let others := ((closeAll rest).within fun rest => lane :: rest).after step.events
    match step.result with
    | .error fault => { others with result := .error fault }
    | .ok () => others

/-- The lanes without their heads. -/
def clearHeads (lanes : List (Lane ι)) : List (Lane ι) :=
  lanes.map fun lane => { lane with head := none }

/-- Makes the inputs ready and takes the first row of each. -/
def init [Operator ι] (merge : Merge ι) : Step (Merge ι) Unit :=
  let started := initAll (clearHeads merge.lanes)
  match started.result with
  | .error _ => started.within fun lanes => { merge with lanes }
  | .ok () =>
    let pulled := (pullAll started.state).after started.events
    match pulled.result with
    | .error _ => pulled.within fun lanes => { merge with lanes }
    | .ok () => pulled.within fun lanes => ⟨lanes, true⟩

/-- The least row held. -/
def next [Operator ι] (merge : Merge ι) : Step (Merge ι) (Option Tuple) :=
  if !merge.ready then notReady merge
  else
    match choose merge.lanes with
    | none => ⟨.ok none, merge, []⟩
    | some choice =>
      let step := Operator.next choice.input
      let lane : Lane ι := ⟨step.state, headOf step⟩
      let merge := { merge with lanes := choice.before ++ lane :: choice.after }
      match step.result with
      | .error fault => ⟨.error fault, merge, step.events⟩
      | .ok _ => ⟨.ok (some choice.row), merge, step.events⟩

/-- Closes every input and drops the rows held. -/
def close [Operator ι] (merge : Merge ι) : Step (Merge ι) Unit :=
  (closeAll (clearHeads merge.lanes)).within fun lanes => ⟨lanes, false⟩

/-! ### Budget -/

/-- What a lane can still give: its head and the rows of its input. -/
def laneBudget [Bounded ι] (lane : Lane ι) : Nat :=
  Bounded.budget lane.input + lane.head.toList.length

/-- What some lanes can still give. -/
def lanesBudget [Bounded ι] : List (Lane ι) → Nat
  | [] => 0
  | lane :: rest => laneBudget lane + lanesBudget rest

theorem lanesBudget_append [Bounded ι] (before after : List (Lane ι)) :
    lanesBudget (before ++ after) = lanesBudget before + lanesBudget after := by
  induction before with
  | nil => simp only [List.nil_append, lanesBudget, Nat.zero_add]
  | cons lane rest ih => simp only [List.cons_append, lanesBudget, ih]; omega

theorem choose_lanes {lanes : List (Lane ι)} {choice : Choice ι}
    (chosen : choose lanes = some choice) :
    lanes = choice.before ++ ⟨choice.input, some choice.row⟩ :: choice.after := by
  induction lanes generalizing choice with
  | nil => simp only [choose, reduceCtorEq] at chosen
  | cons lane rest ih =>
    obtain ⟨input, head⟩ := lane
    rw [choose] at chosen
    cases head with
    | none =>
      cases others : choose rest with
      | none => simp only [others, reduceCtorEq] at chosen
      | some later =>
        simp only [others, Option.some.injEq] at chosen
        rw [← chosen]
        exact congrArg (List.cons _) (ih others)
    | some row =>
      cases others : choose rest with
      | none =>
        simp only [others, Option.some.injEq] at chosen
        rw [← chosen]
        rfl
      | some later =>
        simp only [others] at chosen
        split at chosen
        · injection chosen with same
          rw [← same]
          exact congrArg (List.cons _) (ih others)
        · injection chosen with same
          rw [← same]
          rfl

theorem headOf_length (step : Step ι (Option Tuple)) :
    (headOf step).toList.length = step.rowCount := by
  unfold headOf Step.rowCount Step.rowsIn
  cases step.result with
  | error fault => rfl
  | ok row => cases row <;> rfl

theorem lanesBudget_clearHeads [Bounded ι] (lanes : List (Lane ι)) :
    lanesBudget (clearHeads lanes) ≤ lanesBudget lanes := by
  induction lanes with
  | nil => exact Nat.le_refl _
  | cons lane rest ih =>
    simp only [clearHeads, List.map_cons, lanesBudget, laneBudget, Option.toList, List.length_nil]
      at *
    omega

theorem initAll_budget [Bounded ι] (lanes : List (Lane ι)) :
    lanesBudget (initAll lanes).state ≤ lanesBudget lanes := by
  induction lanes with
  | nil => exact Nat.le_refl _
  | cons lane rest ih =>
    have law := Bounded.init_budget lane.input
    rw [initAll]
    split <;>
      (simp only [Step.after, Step.within, lanesBudget, laneBudget] at *; omega)

theorem pullAll_budget [Bounded ι] (lanes : List (Lane ι)) :
    lanesBudget (pullAll lanes).state ≤ lanesBudget lanes := by
  induction lanes with
  | nil => exact Nat.le_refl _
  | cons lane rest ih =>
    have law := Bounded.next_budget lane.input
    have held := headOf_length (Operator.next lane.input)
    rw [pullAll]
    split <;>
      (simp only [Step.after, Step.within, lanesBudget, laneBudget, held] at *; omega)

theorem init_budget [Bounded ι] (merge : Merge ι) :
    lanesBudget (init merge).state.lanes ≤ lanesBudget merge.lanes := by
  have cleared := lanesBudget_clearHeads merge.lanes
  have started := initAll_budget (clearHeads merge.lanes)
  have pulled := pullAll_budget (initAll (clearHeads merge.lanes)).state
  unfold init
  simp only
  split
  · simp only [Step.within]; omega
  · split <;> (simp only [Step.within, Step.after]; omega)

theorem next_budget [Bounded ι] (merge : Merge ι) :
    lanesBudget (next merge).state.lanes + (next merge).rowCount ≤ lanesBudget merge.lanes := by
  unfold next
  split
  · simp only [notReady, Step.rowCount, Step.rowsIn]; omega
  split
  · simp only [Step.rowCount, Step.rowsIn]; omega
  · rename_i choice chosen
    have whole := congrArg lanesBudget (choose_lanes chosen)
    have law := Bounded.next_budget choice.input
    have held := headOf_length (Operator.next choice.input)
    simp only [lanesBudget_append, lanesBudget, laneBudget, Option.toList, List.length_cons,
      List.length_nil] at whole
    simp only
    split <;>
      (simp only [lanesBudget_append, lanesBudget, laneBudget, held, Step.rowCount,
        Step.rowsIn] at *; omega)

instance [Bounded ι] : Bounded (Merge ι) where
  init := init
  next := next
  close := close
  budget merge := lanesBudget merge.lanes
  init_budget := init_budget
  next_budget := next_budget

end Merge

end WideRow
