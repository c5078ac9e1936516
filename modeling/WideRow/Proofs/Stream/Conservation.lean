import Mathlib.Algebra.BigOperators.Group.List.Basic
import Mathlib.Algebra.Order.Group.Multiset
import Mathlib.Tactic.Abel
import WideRow.Proofs.Plan.Walk
import WideRow.Proofs.Stream.Merging
import WideRow.Proofs.Stream.Recorded
import WideRow.Proofs.Stream.Requests

/-!
# Where the rows of a merge are

The inputs of a merge may answer anything at any time: a row, the end or a fault.  Every row that they
have given since the merge was made ready has been returned, is held as the head of a lane, or is lost.
A row is lost when the input that it came from fails to give the next one, which is asked for before the
row is returned; so as many rows are lost as requests have failed.

* `next_mapInputs`, `init_mapInputs` : a merge does not see how its inputs are represented, so recording
  them changes nothing.
* `Balanced` : the account of the rows; `init_balanced`, `next_balanced` and `ask_balanced` carry it
  through a run.
* `conserved_iff` : main statement.
-/

namespace WideRow

variable {ι κ : Type}

/-! ### Inputs in another representation -/

/-- The same lane with its input in another representation. -/
def Lane.mapInput (f : ι → κ) (lane : Lane ι) : Lane κ := ⟨f lane.input, lane.head⟩

namespace Merge

/-- The same merge with its inputs in another representation. -/
def mapInputs (f : ι → κ) (merge : Merge ι) : Merge κ :=
  ⟨merge.lanes.map (Lane.mapInput f), merge.ready⟩

/-- The same choice among inputs in another representation. -/
def Choice.mapInputs (f : ι → κ) (choice : Choice ι) : Choice κ :=
  ⟨choice.before.map (Lane.mapInput f), choice.row, f choice.input,
    choice.after.map (Lane.mapInput f)⟩

theorem choose_mapInputs (f : ι → κ) (lanes : List (Lane ι)) :
    choose (lanes.map (Lane.mapInput f)) = (choose lanes).map (Choice.mapInputs f) := by
  induction lanes with
  | nil => rfl
  | cons lane rest ih =>
    obtain ⟨input, head⟩ := lane
    rw [List.map_cons, choose, choose, ih]
    cases head with
    | none => cases choose rest <;> rfl
    | some row =>
      cases choose rest with
      | none => rfl
      | some choice =>
        simp only [Lane.mapInput, Option.map_some, Choice.mapInputs]
        split <;> rfl

theorem clearHeads_mapInputs (f : ι → κ) (lanes : List (Lane ι)) :
    clearHeads (lanes.map (Lane.mapInput f)) = (clearHeads lanes).map (Lane.mapInput f) := by
  simp only [clearHeads, List.map_map]
  rfl

section Representation

variable [Operator ι] [Operator κ] {f : ι → κ}

theorem initAll_mapInputs (starts : ∀ input, Operator.init (f input) = (Operator.init input).within f)
    (lanes : List (Lane ι)) :
    initAll (lanes.map (Lane.mapInput f)) = (initAll lanes).within (List.map (Lane.mapInput f)) := by
  induction lanes with
  | nil => rfl
  | cons lane rest ih =>
    rw [List.map_cons, initAll, initAll, ih]
    simp only [Lane.mapInput, starts, Step.within]
    cases (Operator.init lane.input).result <;> rfl

theorem pullAll_mapInputs (steps : ∀ input, Operator.next (f input) = (Operator.next input).within f)
    (lanes : List (Lane ι)) :
    pullAll (lanes.map (Lane.mapInput f)) = (pullAll lanes).within (List.map (Lane.mapInput f)) := by
  induction lanes with
  | nil => rfl
  | cons lane rest ih =>
    rw [List.map_cons, pullAll, pullAll, ih]
    simp only [Lane.mapInput, steps, Step.within, headOf]
    cases (Operator.next lane.input).result <;> rfl

theorem init_mapInputs (starts : ∀ input, Operator.init (f input) = (Operator.init input).within f)
    (steps : ∀ input, Operator.next (f input) = (Operator.next input).within f)
    (merge : Merge ι) : init (merge.mapInputs f) = (init merge).within (mapInputs f) := by
  unfold init
  simp only [mapInputs, clearHeads_mapInputs, initAll_mapInputs starts, pullAll_mapInputs steps,
    Step.within, Step.after]
  cases (initAll (clearHeads merge.lanes)).result with
  | error fault => rfl
  | ok _ =>
    simp only
    cases (pullAll (initAll (clearHeads merge.lanes)).state).result <;> rfl

theorem next_mapInputs (steps : ∀ input, Operator.next (f input) = (Operator.next input).within f)
    (merge : Merge ι) : next (merge.mapInputs f) = (next merge).within (mapInputs f) := by
  obtain ⟨lanes, ready⟩ := merge
  cases ready with
  | false => rfl
  | true =>
    show next ⟨lanes.map (Lane.mapInput f), true⟩ = _
    have choice := choose_mapInputs f lanes
    cases chosen : choose lanes with
    | none =>
      rw [chosen] at choice
      rw [next_of_empty chosen, next_of_empty choice]
      rfl
    | some least =>
      rw [chosen] at choice
      have pulled : pulledLane (f least.input) = (pulledLane least.input).mapInput f := by
        rw [pulledLane, steps]
        rfl
      rw [next_of_choice chosen, next_of_choice choice]
      simp only [Choice.mapInputs, mapInputs, Step.within, List.map_append, List.map_cons, steps,
        pulled]

end Representation

end Merge

/-! ### Rows given, held and returned -/

/-- The row in an answer, if there is one. -/
def rowIn? : Fallible (Option Tuple) → Option Tuple
  | .ok row => row
  | .error _ => none

/-- The row that a call has given, if there is one. -/
def Call.row? : Call → Option Tuple
  | .next answer => rowIn? answer
  | _ => none

/-- The rows that an operator has given. -/
def Recorded.given (recorded : Recorded ι) : Multiset Tuple := recorded.calls.filterMap Call.row?

/-- The rows in some answers. -/
def returnedRows (answers : List (Fallible (Option Tuple))) : Multiset Tuple :=
  answers.filterMap rowIn?

/-- How many of some answers are faults. -/
def failures (answers : List (Fallible (Option Tuple))) : Nat :=
  answers.countP fun answer => !answer.isOk

theorem coe_filterMap_cons {α β : Type} (f : α → Option β) (item : α) (items : List α) :
    ((item :: items).filterMap f : Multiset β) =
      ((f item).toList : Multiset β) + (items.filterMap f : Multiset β) := by
  cases image : f item with
  | none =>
    rw [List.filterMap_cons_none image]
    exact (zero_add _).symm
  | some _ =>
    rw [List.filterMap_cons_some image]
    rfl

theorem Recorded.given_note {α : Type} (recorded : Recorded ι) (call : Fallible α → Call)
    (step : Step ι α) :
    (note recorded.calls call step).state.given =
      recorded.given + ((call step.result).row?.toList : Multiset Tuple) := by
  show ((recorded.calls ++ [call step.result]).filterMap Call.row? : Multiset Tuple) = _
  rw [List.filterMap_append, ← Multiset.coe_add, coe_filterMap_cons, List.filterMap_nil,
    Multiset.coe_nil, add_zero]
  rfl

namespace Merge

/-- The rows that some lanes hold. -/
def held (lanes : List (Lane ι)) : Multiset Tuple := lanes.filterMap Lane.head

/-- The rows that the inputs of some lanes have given. -/
def pulled (lanes : List (Lane (Recorded ι))) : Multiset Tuple :=
  (lanes.map fun lane => lane.input.given).sum

theorem held_parted (before after : List (Lane ι)) (lane : Lane ι) :
    held (before ++ lane :: after) =
      (lane.head.toList : Multiset Tuple) + held (before ++ after) := by
  simp only [held, List.filterMap_append, ← Multiset.coe_add, coe_filterMap_cons]
  exact add_left_comm _ _ _

theorem pulled_parted (before after : List (Lane (Recorded ι))) (lane : Lane (Recorded ι)) :
    pulled (before ++ lane :: after) = lane.input.given + pulled (before ++ after) := by
  simp only [pulled, List.map_append, List.map_cons, List.sum_append, List.sum_cons]
  exact add_left_comm _ _ _

/-- The merge over inputs that record what they are asked for. -/
def recording (merge : Merge ι) : Merge (Recorded ι) := merge.mapInputs Recorded.fresh

theorem recording_plain (merge : Merge ι) : merge.recording.mapInputs Recorded.operator = merge := by
  have lanes : (merge.lanes.map (Lane.mapInput Recorded.fresh)).map (Lane.mapInput Recorded.operator) =
      merge.lanes := by
    rw [List.map_map]
    exact List.map_id _
  rw [recording, mapInputs, mapInputs, lanes]

theorem held_mapInputs (f : ι → κ) (lanes : List (Lane ι)) :
    held (lanes.map (Lane.mapInput f)) = held lanes := by
  rw [held, List.filterMap_map]
  rfl

/-- Every row that the inputs have given has been returned, is held or is lost. -/
def Balanced (lanes : List (Lane (Recorded ι))) (returned lost : Multiset Tuple) : Prop :=
  pulled lanes = returned + held lanes + lost

/-! ### Making the inputs ready -/

/-- A lane whose input has given nothing. -/
def Untouched (lane : Lane (Recorded ι)) : Prop := lane.input.given = 0 ∧ lane.head = none

/-- A lane that holds what its input has given. -/
def Accounted (lane : Lane (Recorded ι)) : Prop := lane.input.given = lane.head.toList

theorem accounted_of_untouched {lane : Lane (Recorded ι)} (untouched : Untouched lane) :
    Accounted lane := by
  rw [Accounted, untouched.1, untouched.2]
  rfl

theorem pulled_eq_held {lanes : List (Lane (Recorded ι))}
    (all : ∀ lane ∈ lanes, Accounted lane) :
    pulled lanes = held lanes := by
  induction lanes with
  | nil => rfl
  | cons lane rest ih =>
    obtain ⟨first, others⟩ := List.forall_mem_cons.mp all
    have given := pulled_parted [] rest lane
    have heads := held_parted [] rest lane
    simp only [List.nil_append] at given heads
    rw [given, heads, first, ih others]

section Account

variable [Operator ι]

theorem initAll_untouched {lanes : List (Lane (Recorded ι))}
    (untouched : ∀ lane ∈ lanes, Untouched lane) :
    ∀ lane ∈ (initAll lanes).state, Untouched lane := by
  induction lanes with
  | nil => exact untouched
  | cons lane rest ih =>
    obtain ⟨first, others⟩ := List.forall_mem_cons.mp untouched
    have started : Untouched { lane with input := (Operator.init lane.input).state } := by
      refine ⟨?_, first.2⟩
      have noted := lane.input.given_note .init (Operator.init lane.input.operator)
      rw [first.1] at noted
      exact noted
    rw [initAll]
    split
    · exact List.forall_mem_cons.mpr ⟨started, others⟩
    · exact List.forall_mem_cons.mpr ⟨started, ih others⟩

/-- What an input gives becomes the head of its lane. -/
theorem given_pulledLane (input : Recorded ι) :
    (pulledLane input).input.given =
      input.given + ((pulledLane input).head.toList : Multiset Tuple) :=
  input.given_note .next (Operator.next input.operator)

theorem pullAll_accounted {lanes : List (Lane (Recorded ι))}
    (untouched : ∀ lane ∈ lanes, Untouched lane) :
    ∀ lane ∈ (pullAll lanes).state, Accounted lane := by
  induction lanes with
  | nil => exact fun _ member => absurd member List.not_mem_nil
  | cons lane rest ih =>
    obtain ⟨first, others⟩ := List.forall_mem_cons.mp untouched
    have pulled : Accounted (pulledLane lane.input) := by
      have step := given_pulledLane lane.input
      rw [first.1, zero_add] at step
      exact step
    rw [pullAll]
    split
    · -- the input has failed, and those after it have not been asked
      have rest := fun other member => accounted_of_untouched (others other member)
      exact List.forall_mem_cons.mpr ⟨pulled, rest⟩
    · exact List.forall_mem_cons.mpr ⟨pulled, ih others⟩

theorem init_accounted (merge : Merge ι) :
    ∀ lane ∈ (init merge.recording).state.lanes, Accounted lane := by
  have fresh : ∀ lane ∈ clearHeads merge.recording.lanes, Untouched lane := by
    refine List.forall_mem_map.mpr (List.forall_mem_map.mpr ?_)
    intro lane _
    exact ⟨rfl, rfl⟩
  have started := initAll_untouched fresh
  have pulled := pullAll_accounted started
  unfold init
  simp only
  split
  · exact fun lane member => accounted_of_untouched (started lane member)
  · split
    · exact pulled
    · exact pulled

/-- A merge that has been made ready, or has failed to be, holds what its inputs have given. -/
theorem init_balanced (merge : Merge ι) : Balanced (init merge.recording).state.lanes 0 0 := by
  rw [Balanced, pulled_eq_held (init_accounted merge), zero_add, add_zero]

/-! ### Asking for rows -/

/-- A request that succeeds returns the row it takes away; a request that fails loses it. -/
theorem next_balanced {lanes : List (Lane (Recorded ι))} {returned lost : Multiset Tuple}
    (balanced : Balanced lanes returned lost) :
    ∃ later more, (next ⟨lanes, true⟩).state = ⟨later, true⟩ ∧
      Balanced later (returned + ((rowIn? (next ⟨lanes, true⟩).result).toList : Multiset Tuple))
        (lost + more) ∧
      more.card = failures [(next ⟨lanes, true⟩).result] := by
  cases chosen : choose lanes with
  | none =>
    rw [next_of_empty chosen]
    refine ⟨lanes, 0, rfl, ?_, rfl⟩
    show Balanced lanes (returned + 0) (lost + 0)
    rw [add_zero, add_zero]
    exact balanced
  | some choice =>
    have step := given_pulledLane choice.input
    have answer : (pulledLane choice.input).head = rowIn? (Operator.next choice.input).result := rfl
    rw [choose_lanes chosen, Balanced, pulled_parted, held_parted] at balanced
    rw [next_of_choice chosen]
    cases given : (Operator.next choice.input).result with
    | error fault =>
      rw [given] at answer
      refine ⟨_, {choice.row}, rfl, ?_, rfl⟩
      rw [Balanced, pulled_parted, held_parted, step, add_right_comm, balanced, answer]
      show returned + ({choice.row} + held (choice.before ++ choice.after)) + lost + 0 =
        returned + 0 + (0 + held (choice.before ++ choice.after)) + (lost + {choice.row})
      abel
    | ok row =>
      refine ⟨_, 0, rfl, ?_, rfl⟩
      rw [Balanced, pulled_parted, held_parted, step, add_right_comm, balanced]
      show returned + ({choice.row} + held (choice.before ++ choice.after)) + lost + _ =
        returned + {choice.row} + (_ + held (choice.before ++ choice.after)) + (lost + 0)
      abel

theorem ask_balanced {lanes : List (Lane (Recorded ι))} {returned lost : Multiset Tuple}
    (balanced : Balanced lanes returned lost) (count : Nat) :
    ∃ more, Balanced (ask next count ⟨lanes, true⟩).state.lanes
        (returned + returnedRows (ask next count ⟨lanes, true⟩).answers) (lost + more) ∧
      more.card = failures (ask next count ⟨lanes, true⟩).answers := by
  induction count generalizing lanes returned lost with
  | zero =>
    refine ⟨0, ?_, rfl⟩
    show Balanced lanes (returned + 0) (lost + 0)
    rw [add_zero, add_zero]
    exact balanced
  | succ count ih =>
    obtain ⟨later, first, state, balancedLater, failed⟩ := next_balanced balanced
    obtain ⟨others, balancedOthers, failedOthers⟩ := ih balancedLater
    refine ⟨first + others, ?_, ?_⟩
    · rw [ask, state]
      show Balanced _ (returned + returnedRows ((next ⟨lanes, true⟩).result :: _)) _
      rw [returnedRows, coe_filterMap_cons, ← add_assoc, ← add_assoc]
      exact balancedOthers
    · rw [ask, state, Multiset.card_add, failed, failedOthers]
      exact List.countP_append.symm

/-! ### The whole account -/

/-- The rows that the inputs of a merge give while it is made ready and asked for a number of rows. -/
def pulledRows (merge : Merge ι) (count : Nat) : Multiset Tuple :=
  pulled (ask next count (init merge.recording).state).state.lanes

/-- After a number of requests every row that the inputs have given has been returned or is held. -/
def Conserved (merge : Merge ι) (count : Nat) : Prop :=
  let asked := ask next count (init merge).state
  pulledRows merge count = returnedRows asked.answers + held asked.state.lanes

instance (merge : Merge ι) (count : Nat) : Decidable (merge.Conserved count) :=
  inferInstanceAs (Decidable (_ = _))

theorem failures_eq_zero (answers : List (Fallible (Option Tuple))) :
    failures answers = 0 ↔ ∀ answer ∈ answers, answer.isOk = true := by
  rw [failures, List.countP_eq_zero]
  refine forall₂_congr fun answer _ => ?_
  cases answer.isOk <;> decide

/-- Recording what the inputs give does not change what the merge does. -/
theorem init_recording (merge : Merge ι) :
    init merge = (init merge.recording).within (mapInputs Recorded.operator) := by
  have same := init_mapInputs Recorded.init_operator Recorded.next_operator merge.recording
  rw [recording_plain] at same
  exact same

theorem ask_recording (merge : Merge ι) (count : Nat) :
    ask next count (init merge).state =
      (ask next count (init merge.recording).state).within (mapInputs Recorded.operator) := by
  rw [init_recording]
  exact ask_within (next_mapInputs Recorded.next_operator) count (init merge.recording).state

theorem ask_account (merge : Merge ι) (ready : (init merge).state.ready = true) (count : Nat) :
    ∃ lost, pulledRows merge count =
        returnedRows (ask next count (init merge).state).answers +
          held (ask next count (init merge).state).state.lanes + lost ∧
      lost.card = failures (ask next count (init merge).state).answers := by
  rw [init_recording] at ready
  have begun : (init merge.recording).state = ⟨(init merge.recording).state.lanes, true⟩ :=
    congrArg (Merge.mk _) ready
  obtain ⟨lost, balanced, card⟩ := ask_balanced (init_balanced merge) count
  rw [← begun, Balanced, zero_add, zero_add] at balanced
  rw [← begun] at card
  refine ⟨lost, ?_, ?_⟩
  · rw [ask_recording]
    show _ = _ + held ((ask next count (init merge.recording).state).state.lanes.map _) + lost
    rw [held_mapInputs]
    exact balanced
  · rw [ask_recording]
    exact card

/-- **The rows that a merge loses.**  Whatever its inputs answer, after each request to a merge that has
been made ready, the rows that the inputs have given since are those that it has returned, those that it
holds and one lost row for each request that has failed.  So none is missing exactly as long as no
request has failed. -/
theorem conserved_iff (merge : Merge ι) (ready : (init merge).state.ready = true) (count : Nat) :
    let asked := ask next count (init merge).state
    (∃ lost, pulledRows merge count = returnedRows asked.answers + held asked.state.lanes + lost ∧
        lost.card = failures asked.answers) ∧
      (merge.Conserved count ↔ ∀ answer ∈ asked.answers, answer.isOk = true) := by
  intro asked
  obtain ⟨lost, whole, card⟩ := merge.ask_account ready count
  refine ⟨⟨lost, whole, card⟩, ?_⟩
  show pulledRows merge count = returnedRows asked.answers + held asked.state.lanes ↔ _
  rw [whole, add_eq_left, ← Multiset.card_eq_zero, card, failures_eq_zero]

end Account

/-! ### A row that is lost -/

/-- A tuple whose column `f:q` has two bytes, so that it is not a boolean. -/
def unreadableTuple (key : UInt8) : Tuple :=
  ⟨Record.entry (Cell.bytes ⟨[key], [102], [113], Signed.zero 64, 4, [1, 1]⟩), 14, 1⟩

/-- Two selections by the column `f:q`, the first of which fails on its second row. -/
def failingMerge : Merge (Selection Scan) :=
  let inputs := [
    Scan.ofRows "1" [Plan.sampleTuple 97 1, unreadableTuple 98, Plan.sampleTuple 99 1],
    Scan.ofRows "2" [Plan.sampleTuple 100 1]]
  ⟨inputs.map fun input => ⟨⟨input, .column ⟨[102], [113], .boolean⟩, false⟩, none⟩, false⟩

theorem conserved_iff_failing :
    (init failingMerge).state.ready = true ∧
      ∃ lost, pulledRows failingMerge 3 =
        returnedRows (ask next 3 (init failingMerge).state).answers +
          held (ask next 3 (init failingMerge).state).state.lanes + lost ∧ lost.card = 1 := by
  have ready : (init failingMerge).state.ready = true := by decide +kernel
  have once : failures (ask next 3 (init failingMerge).state).answers = 1 := by decide +kernel
  obtain ⟨lost, whole, card⟩ := (conserved_iff failingMerge ready 3).1
  exact ⟨ready, lost, whole, card.trans once⟩

/-- The first request takes the row of the first selection away and fails to replace it; the row is not
returned by any request. -/
theorem not_conserved :
    (init failingMerge).state.ready = true ∧ failingMerge.Conserved 0 ∧
      ¬ failingMerge.Conserved 1 ∧
      (ask next 3 (init failingMerge).state).answers.drop 1 =
        rowAnswers [Plan.sampleTuple 100 1] ++ [.ok none] := by
  decide +kernel

end Merge

end WideRow
