import WideRow.Proofs.Plan.Fields
import WideRow.Proofs.Stream.Recorded

/-!
# What a sequence of rows asks of its operator

An operator may answer anything at any time: `init`, `next` and `close` may each fail or not, and nothing
relates one answer to another.  Whatever it does, a sequence of rows that is asked for some rows and then
dropped hands its rows on, comes to one ending and keeps to it, and the calls to the operator form a
`session`: made ready once, asked for rows, closed once and then left alone.

* `Course` : the answers of a sequence and the calls behind them, side by side.
* `Disciplined` : what the order of calls to an operator must be.
* `Standing` : the invariant; `standing_next` is its step, `standing_ask` the run.
* `fused_and_disciplined` : main statement.
-/

namespace WideRow

/-! ### The order of calls -/

/-- The calls to an operator that is made ready, asked for rows and closed. -/
def session (started : Fallible Unit) (asked : List (Fallible (Option Tuple)))
    (closed : Fallible Unit) : List Call :=
  .init started :: asked.map .next ++ [.close closed]

/-- An operator is made ready at most once and before it is asked for rows; if it has been made ready, it
is closed exactly once; and it is not called after that. -/
structure Disciplined (calls : List Call) : Prop where
  initOnce : calls.countP Call.isInit ≤ 1
  initFirst : ∀ before result after, calls = before ++ .next result :: after →
    ∃ started, Call.init started ∈ before
  closeOnce : (∃ started, Call.init started ∈ calls) → calls.countP Call.isClose = 1
  closeLast : ∀ before result after, calls = before ++ .close result :: after → after = []

theorem disciplined_nil : Disciplined [] where
  initOnce := Nat.zero_le 1
  initFirst _ _ _ split := absurd split (List.append_ne_nil_of_right_ne_nil _ (List.cons_ne_nil _ _)).symm
  closeOnce := fun ⟨_, member⟩ => absurd member List.not_mem_nil
  closeLast _ _ _ split := absurd split (List.append_ne_nil_of_right_ne_nil _ (List.cons_ne_nil _ _)).symm

theorem countP_next {p : Call → Bool} (rows : ∀ result, p (.next result) = false)
    (asked : List (Fallible (Option Tuple))) : (asked.map Call.next).countP p = 0 := by
  refine List.countP_eq_zero.mpr ?_
  intro call member
  obtain ⟨result, _, rfl⟩ := List.mem_map.mp member
  exact Bool.eq_false_iff.mp (rows result)

theorem disciplined_session (started : Fallible Unit) (asked : List (Fallible (Option Tuple)))
    (closed : Fallible Unit) : Disciplined (session started asked closed) where
  initOnce := by
    have inits : (session started asked closed).countP Call.isInit = 1 := by
      rw [session, List.countP_append, List.countP_cons_of_pos rfl, countP_next fun _ => rfl]
      rfl
    exact Nat.le_of_eq inits
  initFirst := by
    intro before result after split
    cases before with
    | nil => injection split with first _; cases first
    | cons first rest =>
      injection split with same _
      exact ⟨started, same ▸ List.mem_cons_self⟩
  closeOnce := by
    intro _
    rw [session, List.countP_append, List.countP_cons_of_neg Bool.false_ne_true,
      countP_next fun _ => rfl]
    rfl
  closeLast := by
    intro before result after split
    rcases List.eq_nil_or_concat after with empty | ⟨rest, last, ended⟩
    · exact empty
    · -- then the call to close stands before the last one, among those that do not close
      rw [ended, List.concat_eq_append, session, ← List.cons_append, ← List.append_assoc] at split
      have front := (List.append_inj' split rfl).1
      have member : Call.close result ∈ Call.init started :: asked.map Call.next := by
        rw [front]
        exact List.mem_append_right _ List.mem_cons_self
      rcases List.mem_cons.mp member with isInit | isNext
      · cases isInit
      · obtain ⟨_, _, other⟩ := List.mem_map.mp isNext
        cases other

namespace RowSequence

variable {ω : Type}

/-- The calls that the operator of a sequence has had. -/
def calls : RowSequence (Recorded ω) → List Call
  | refused _ => []
  | waiting root => root.calls
  | running root => root.calls
  | finished root => root.calls
  | failed root => (root.map Recorded.calls).getD []

/-- The sequence without the record. -/
def plain : RowSequence (Recorded ω) → RowSequence ω
  | refused fault => refused fault
  | waiting root => waiting root.operator
  | running root => running root.operator
  | finished root => finished root.operator
  | failed root => failed (root.map Recorded.operator)

variable [Operator ω]

theorem advance_plain (root : Recorded ω) :
    advance root.operator = (advance root).within plain := by
  -- the record answers what the operator does
  cases given : (Operator.next root.operator).result with
  | error fault =>
    have same : (Operator.next root).result = .error fault := given
    rw [advance_of_fault given, advance_of_fault same]
    rfl
  | ok row =>
    have same : (Operator.next root).result = .ok row := given
    cases row with
    | none =>
      rw [advance_of_end given, advance_of_end same]
      rfl
    | some tuple =>
      rw [advance_of_row given, advance_of_row same]
      rfl

/-- Recording does not change what a sequence does. -/
theorem next_plain (rows : RowSequence (Recorded ω)) :
    next rows.plain = (next rows).within plain := by
  cases rows with
  | refused fault => rfl
  | waiting root =>
    show next (waiting root.operator) = _
    cases started : (Operator.init root.operator).result with
    | error fault =>
      have same : (Operator.init root).result = .error fault := started
      rw [next_of_refused started, next_of_refused same]
      rfl
    | ok _ =>
      have same : (Operator.init root).result = .ok () := started
      have first := advance_plain (Operator.init root).state
      rw [next_of_started started, next_of_started same]
      show (advance (Operator.init root).state.operator).after (Operator.init root).events = _
      rw [first]
      rfl
  | running root => exact advance_plain root
  | finished root => rfl
  | failed root => rfl

/-- The answers of a sequence whose operator is recorded are those of the sequence itself. -/
theorem ask_recorded (root : ω) (count : Nat) :
    (ask next count (waiting (Recorded.fresh root))).answers =
      (ask next count (waiting root)).answers := by
  have whole := ask_within next_plain count (waiting (Recorded.fresh root))
  rw [show (waiting (Recorded.fresh root)).plain = waiting root from rfl] at whole
  rw [whole]
  rfl

/-! ### Courses -/

/-- The answers of a sequence before it is dropped, and the calls that its operator has had after that. -/
inductive Course : List (Fallible (Option Tuple)) → List Call → Prop
  /-- It is dropped before it is asked for anything, and its operator has not been called. -/
  | unused : Course [] []
  /-- It has given the rows of its operator, and is closed when it is dropped. -/
  | dropped {rows : List Tuple} (begun : rows ≠ []) (closed : Fallible Unit) :
      Course (rowAnswers rows) (session (.ok ()) (rowAnswers rows) closed)
  /-- It has given the rows of its operator and come to the ending that the operator came to. -/
  | ended (rows : List Tuple) (ending : Option QueryFault) (times : Nat) (closed : Fallible Unit) :
      Course (endedAnswers rows ending times)
        (session (.ok ()) (rowAnswers rows ++ [endAnswer ending]) closed)
  /-- Its operator could not be made ready. -/
  | refused (fault : QueryFault) (times : Nat) (closed : Fallible Unit) :
      Course (endedAnswers [] (some fault) times) (session (.error fault) [] closed)

theorem Course.disciplined {answers : List (Fallible (Option Tuple))} {calls : List Call}
    (course : Course answers calls) : Disciplined calls := by
  cases course with
  | unused => exact disciplined_nil
  | dropped _ closed => exact disciplined_session _ _ closed
  | ended _ _ _ closed => exact disciplined_session _ _ closed
  | refused _ _ closed => exact disciplined_session _ _ closed

/-! ### The invariant -/

/-- How a sequence stands that has given some answers. -/
inductive Standing : List (Fallible (Option Tuple)) → RowSequence (Recorded ω) → Prop
  | waiting {root : Recorded ω} (fresh : root.calls = []) : Standing [] (waiting root)
  | running {rows : List Tuple} {root : Recorded ω} (begun : rows ≠ [])
      (calls : root.calls = .init (.ok ()) :: (rowAnswers rows).map .next) :
      Standing (rowAnswers rows) (running root)
  | ended {rows : List Tuple} {ending : Option QueryFault} {state : RowSequence (Recorded ω)}
      (times : Nat) {closed : Fallible Unit} (settled : Settled ending state)
      (calls : state.calls = session (.ok ()) (rowAnswers rows ++ [endAnswer ending]) closed) :
      Standing (endedAnswers rows ending times) state
  | refused {fault : QueryFault} {state : RowSequence (Recorded ω)} (times : Nat)
      {closed : Fallible Unit} (settled : Settled (some fault) state)
      (calls : state.calls = session (.error fault) [] closed) :
      Standing (endedAnswers [] (some fault) times) state

/-- Closing an operator completes its session. -/
theorem session_of_close {root : Recorded ω} {started : Fallible Unit}
    {asked : List (Fallible (Option Tuple))} (calls : root.calls = .init started :: asked.map .next) :
    (Operator.close root).state.calls =
      session started asked (Operator.close root.operator).result := by
  show root.calls ++ [.close (Operator.close root.operator).result] = _
  rw [calls]
  rfl

/-- An operator that is ready is asked for a row. -/
theorem standing_advance {rows : List Tuple} {root : Recorded ω}
    (calls : root.calls = .init (.ok ()) :: (rowAnswers rows).map .next) :
    Standing (rowAnswers rows ++ [(advance root).result]) (advance root).state := by
  have asked : (Operator.next root).state.calls =
      .init (.ok ()) :: (rowAnswers rows ++ [(Operator.next root).result]).map .next := by
    show root.calls ++ [.next (Operator.next root).result] = _
    rw [calls, List.map_append]
    rfl
  rcases advance_cases root with ⟨tuple, given, step⟩ | ⟨given, step⟩ | ⟨fault, given, step⟩
  · rw [given, ← rowAnswers_snoc] at asked
    rw [step, ← rowAnswers_snoc]
    exact .running (List.append_ne_nil_of_right_ne_nil _ (List.cons_ne_nil _ _)) asked
  · rw [given] at asked
    rw [step]
    exact .ended 0 (.finished _) (session_of_close asked)
  · rw [given] at asked
    rw [step]
    exact .ended 0 (.failed fault _) (session_of_close asked)

/-- A request preserves the invariant. -/
theorem standing_next {answers : List (Fallible (Option Tuple))} {state : RowSequence (Recorded ω)}
    (standing : Standing answers state) :
    Standing (answers ++ [(next state).result]) (next state).state := by
  cases standing with
  | @waiting root fresh =>
    -- the first request makes the operator ready and goes on as one that is
    have made : (Operator.init root).state.calls = [.init (Operator.init root).result] := by
      show root.calls ++ [.init (Operator.init root).result] = _
      rw [fresh]
      rfl
    cases started : (Operator.init root).result with
    | error fault =>
      rw [started] at made
      rw [next_of_refused started]
      exact .refused 0 (.failed fault _) (session_of_close made)
    | ok _ =>
      rw [started] at made
      rw [next_of_started started]
      exact @standing_advance _ _ [] _ made
  | running _ calls => exact standing_advance calls
  | ended times settled calls =>
    rw [settled.next_result, settled.next_state, ← endedAnswers_succ]
    exact .ended (times + 1) settled calls
  | refused times settled calls =>
    rw [settled.next_result, settled.next_state, ← endedAnswers_succ]
    exact .refused (times + 1) settled calls

/-- So does any number of them. -/
theorem standing_ask (root : ω) (count : Nat) :
    Standing (ask next count (waiting (Recorded.fresh root))).answers
      (ask next count (waiting (Recorded.fresh root))).state := by
  induction count with
  | zero => exact .waiting rfl
  | succ count ih =>
    rw [ask_last]
    exact standing_next ih

/-- Dropping a sequence settles its course. -/
theorem Standing.course {answers : List (Fallible (Option Tuple))} {state : RowSequence (Recorded ω)}
    (standing : Standing answers state) : Course answers (drop state).state.calls := by
  cases standing with
  | @waiting root fresh =>
    show Course [] root.calls
    rw [fresh]
    exact .unused
  | @running rows root begun calls =>
    show Course _ (Operator.close root).state.calls
    rw [session_of_close calls]
    exact .dropped begun _
  | ended times settled calls =>
    have kept : (drop state).state = state := by cases settled <;> rfl
    rw [kept, calls]
    exact .ended _ _ times _
  | refused times settled calls =>
    have kept : (drop state).state = state := by cases settled; rfl
    rw [kept, calls]
    exact .refused _ times _

/-! ### The whole protocol -/

/-- The calls that an operator has had once a sequence over it has been asked for a number of rows and
dropped. -/
def callsUntilDropped (root : ω) (count : Nat) : List Call :=
  (drop (ask next count (waiting (Recorded.fresh root))).state).state.calls

/-- **A sequence of rows is fused and keeps the discipline of calls.**  Whatever its operator answers, a
sequence that is asked for some rows and dropped then takes one of four courses: it is not used, or hands
on the rows of the operator until it is dropped, or does so up to the ending that the operator comes to,
or reports that the operator could not be made ready; after an ending it answers the end again, or
refuses.  The calls to the operator are in order.  Kept by its fields the sequence does the same, and as
long as it runs it has its operator, so that its end is never that of a sequence without one. -/
theorem fused_and_disciplined (root : ω) (count : Nat) :
    Course (ask next count (waiting root)).answers (callsUntilDropped root count) ∧
      Disciplined (callsUntilDropped root count) ∧
      ask SequenceFields.next count (waiting root).fields =
        (ask next count (waiting root)).within fields ∧
      (ask SequenceFields.next count (waiting root).fields).state.drop =
        (drop (ask next count (waiting root)).state).events ∧
      (ask SequenceFields.next count (waiting root).fields).state.Rooted := by
  have course := (standing_ask root count).course
  rw [ask_recorded] at course
  have same := ask_fields count (waiting root)
  refine ⟨course, course.disciplined, same, ?_, ?_⟩
  · rw [same]
    exact drop_fields _
  · rw [same]
    exact rooted_fields _

end RowSequence

end WideRow
