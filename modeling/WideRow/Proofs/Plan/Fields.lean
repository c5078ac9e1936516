import WideRow.Proofs.Stream.Requests

/-!
# Sequences of rows by their fields

A sequence of rows may be kept as three fields: an operator that is taken away when it is closed, a fault
that is still to be reported, and the phase.  Nothing in such a record excludes a running sequence without
operator, which would answer as if its rows had come to their end.

`fields` is the record of a sequence.  Requests act on the record as they do on the sequence
(`ask_fields`), so that a record that comes from a sequence has its operator as long as it runs
(`rooted_fields`).
-/

namespace WideRow

/-- Where a sequence stands, without its data. -/
inductive SequencePhase where
  | notStarted
  | running
  | done
  | failed
  deriving DecidableEq

/-- A sequence of rows by its fields. -/
structure SequenceFields (ω : Type) where
  /-- The operator, until it is closed. -/
  root : Option ω
  /-- The fault to report in place of the first row. -/
  pending : Option QueryFault
  phase : SequencePhase

namespace SequenceFields

variable {ω : Type}

/-- A running sequence has its operator. -/
def Rooted (rows : SequenceFields ω) : Prop := rows.phase = .running → ∃ root, rows.root = some root

variable [Operator ω]

/-- Takes the operator away and closes it. -/
def closeRoot (rows : SequenceFields ω) : SequenceFields ω × List Event :=
  match rows.root with
  | some root => ({ rows with root := none }, (Operator.close root).events)
  | none => (rows, [])

/-- Closes the operator after a fault, which stays the result. -/
def fail (fault : QueryFault) (rows : SequenceFields ω) : Step (SequenceFields ω) (Option Tuple) :=
  let closed := closeRoot { rows with phase := .failed }
  ⟨.error fault, closed.1, closed.2⟩

/-- The next row of a running sequence.  Without an operator there is none. -/
def advance (rows : SequenceFields ω) : Step (SequenceFields ω) (Option Tuple) :=
  match rows.root with
  | none => ⟨.ok none, rows, []⟩
  | some root =>
    let step := Operator.next root
    let rows := { rows with root := some step.state }
    match step.result with
    | .ok (some tuple) => ⟨.ok (some tuple), rows, step.events⟩
    | .ok none =>
      let closed := closeRoot { rows with phase := .done }
      ⟨.ok none, closed.1, step.events ++ closed.2⟩
    | .error fault => (fail fault rows).after step.events

/-- Begins with the fault to report, or makes the operator ready and takes its first row. -/
def start (rows : SequenceFields ω) : Step (SequenceFields ω) (Option Tuple) :=
  match rows.pending, rows.root with
  | some fault, _ => fail fault { rows with pending := none }
  | none, none => fail (.execution .noOperator) rows
  | none, some root =>
    let step := Operator.init root
    let rows := { rows with root := some step.state }
    match step.result with
    | .ok () => (advance { rows with phase := .running }).after step.events
    | .error fault => (fail fault rows).after step.events

/-- The next row. -/
def next (rows : SequenceFields ω) : Step (SequenceFields ω) (Option Tuple) :=
  match rows.phase with
  | .notStarted => start rows
  | .running => advance rows
  | .done => ⟨.ok none, rows, []⟩
  | .failed => ⟨.error .aborted, rows, []⟩

/-- What letting go of the sequence does: its operator is closed if the sequence is running. -/
def drop (rows : SequenceFields ω) : List Event :=
  if rows.phase = .running then rows.closeRoot.2 else []

end SequenceFields

namespace RowSequence

variable {ω : Type}

/-- The fields of a sequence.  An operator that has been closed is no longer among them. -/
def fields : RowSequence ω → SequenceFields ω
  | refused fault => ⟨none, some fault, .notStarted⟩
  | waiting root => ⟨some root, none, .notStarted⟩
  | running root => ⟨some root, none, .running⟩
  | finished _ => ⟨none, none, .done⟩
  | failed _ => ⟨none, none, .failed⟩

/-- The fields of a sequence never show it running without operator. -/
theorem rooted_fields (rows : RowSequence ω) : rows.fields.Rooted := by
  intro running
  cases rows with
  | running root => exact ⟨root, rfl⟩
  | refused fault => cases running
  | waiting root => cases running
  | finished root => cases running
  | failed root => cases running

variable [Operator ω]

theorem advance_fields (root : ω) :
    SequenceFields.advance (running root).fields = (advance root).within fields := by
  show SequenceFields.advance ⟨some root, none, .running⟩ = _
  unfold SequenceFields.advance
  rcases advance_cases root with ⟨tuple, given, step⟩ | ⟨given, step⟩ | ⟨fault, given, step⟩
  · rw [step]
    simp only [given]
    rfl
  · rw [step]
    simp only [given]
    rfl
  · rw [step]
    simp only [given]
    rfl

/-- A request acts on the fields of a sequence as it does on the sequence. -/
theorem next_fields (rows : RowSequence ω) :
    SequenceFields.next rows.fields = (next rows).within fields := by
  cases rows with
  | refused fault => rfl
  | waiting root =>
    show SequenceFields.start ⟨some root, none, .notStarted⟩ = _
    unfold SequenceFields.start
    cases started : (Operator.init root).result with
    | error fault =>
      rw [next_of_refused started]
      simp only [started]
      rfl
    | ok _ =>
      have step := advance_fields (Operator.init root).state
      rw [fields] at step
      rw [next_of_started started]
      simp only [started, step]
      rfl
  | running root => exact advance_fields root
  | finished root => rfl
  | failed root => rfl

/-- So does a series of requests. -/
theorem ask_fields (count : Nat) (rows : RowSequence ω) :
    ask SequenceFields.next count rows.fields = (ask next count rows).within fields :=
  ask_within next_fields count rows

/-- And letting go of it. -/
theorem drop_fields (rows : RowSequence ω) : rows.fields.drop = (drop rows).events := by
  cases rows <;> rfl

end RowSequence

end WideRow
