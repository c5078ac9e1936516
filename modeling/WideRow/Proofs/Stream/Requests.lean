import WideRow.Proofs.Stream.Delivery

/-!
# Series of requests

Asking something for rows a number of times: the answers in their order, the state that is left, and the
events.  A series can be taken from either end, and it does not see a change of representation that no
single step sees (`ask_within`).

The answers to expect are rows (`rowAnswers`), and after them perhaps an ending and whatever is answered
from then on (`endedAnswers`).
-/

namespace WideRow

/-- What comes of a series of requests. -/
structure Run (ω : Type) where
  /-- The answers to the requests for rows. -/
  answers : List (Fallible (Option Tuple))
  state : ω
  /-- What sources were asked for. -/
  events : List Event

/-- The same run of something that contains the state. -/
def Run.within {ω ω' : Type} (run : Run ω) (rebuild : ω → ω') : Run ω' :=
  ⟨run.answers, rebuild run.state, run.events⟩

variable {ω ω' : Type} {next : ω → Step ω (Option Tuple)} {next' : ω' → Step ω' (Option Tuple)}

/-- Asks for a number of rows. -/
def ask (next : ω → Step ω (Option Tuple)) : Nat → ω → Run ω
  | 0, state => ⟨[], state, []⟩
  | count + 1, state =>
    let others := ask next count (next state).state
    ⟨(next state).result :: others.answers, others.state, (next state).events ++ others.events⟩

/-- The last request of a series. -/
theorem ask_last (count : Nat) (state : ω) :
    ask next (count + 1) state =
      ⟨(ask next count state).answers ++ [(next (ask next count state).state).result],
        (next (ask next count state).state).state,
        (ask next count state).events ++ (next (ask next count state).state).events⟩ := by
  induction count generalizing state with
  | zero =>
    simp only [ask, List.nil_append, List.append_nil]
  | succ count ih =>
    have others := ih (next state).state
    rw [ask, others]
    simp only [ask, List.cons_append, List.append_assoc]

theorem ask_within {rebuild : ω → ω'}
    (steps : ∀ state, next' (rebuild state) = (next state).within rebuild) (count : Nat)
    (state : ω) : ask next' count (rebuild state) = (ask next count state).within rebuild := by
  induction count generalizing state with
  | zero => rfl
  | succ count ih =>
    rw [ask, steps, ask]
    simp only [Step.within, ih, Run.within]

/-! ### Answers -/

/-- The answers that give rows, one after the other. -/
def rowAnswers (rows : List Tuple) : List (Fallible (Option Tuple)) :=
  rows.map fun tuple => .ok (some tuple)

/-- What is answered when the rows come to their end or to a fault. -/
def endAnswer : Option QueryFault → Fallible (Option Tuple)
  | none => .ok none
  | some fault => .error fault

/-- The answers that give rows, come to an ending and are asked for some more times. -/
def endedAnswers (rows : List Tuple) (ending : Option QueryFault) (times : Nat) :
    List (Fallible (Option Tuple)) :=
  rowAnswers rows ++ endAnswer ending :: List.replicate times (RowSequence.settledAnswer ending)

theorem rowAnswers_snoc (rows : List Tuple) (tuple : Tuple) :
    rowAnswers (rows ++ [tuple]) = rowAnswers rows ++ [.ok (some tuple)] := List.map_append

theorem ask_of_end (stays : ∀ state, (next state).result = .ok none → (next state).state = state)
    {state : ω} (given : (next state).result = .ok none) (times : Nat) :
    (ask next times state).answers = List.replicate times (.ok none) := by
  induction times with
  | zero => rfl
  | succ times ih =>
    rw [ask, stays state given, given]
    exact congrArg (List.cons _) ih

/-- Something that delivers rows and stays as it is at its end answers with these rows, and with the end
from then on. -/
theorem Delivers.answers (stays : ∀ state, (next state).result = .ok none → (next state).state = state)
    {state : ω} {rows : List Tuple} (delivers : Delivers next state (Outcome.complete rows))
    (times : Nat) :
    (ask next (rows.length + times) state).answers =
      rowAnswers rows ++ List.replicate times (.ok none) := by
  generalize whole : Outcome.complete rows = outcome at delivers
  induction delivers generalizing rows with
  | finish given =>
    cases whole
    rw [List.length_nil, Nat.zero_add]
    exact ask_of_end stays given times
  | fault given => cases whole
  | @row state tuple outcome given _ ih =>
    obtain ⟨later, ended⟩ := outcome
    cases whole
    have others := ih rfl
    rw [List.length_cons, Nat.succ_add, ask, given, others]
    rfl

theorem endedAnswers_succ (rows : List Tuple) (ending : Option QueryFault) (times : Nat) :
    endedAnswers rows ending (times + 1) =
      endedAnswers rows ending times ++ [RowSequence.settledAnswer ending] := by
  rw [endedAnswers, List.replicate_succ', endedAnswers, List.append_assoc, List.cons_append]

end WideRow
