import WideRow.Plan.RowSequence
import WideRow.Stream.Stage

/-!
# What an operator delivers

An `Outcome` is what is seen of an operator from outside: some rows, and the fault that ends them if
there is one.  `Delivers next state outcome` says that asking for rows from a state gives that outcome;
`Yields state outcome` says it of an operator that is made ready first.

* `Delivers.collect` : collecting rows gives what is delivered;
* `Selection.yields`, `Limit.yields` and the lemmas on `Stage` : what a layer yields is a function of
  what its input yields;
* `RowSequence.delivers_of_yields` : a sequence of rows delivers what its operator yields;
* `RowSequence.settled_collect` : after the last row a sequence is settled, so every further request
  has the same answer.
-/

namespace WideRow

/-- Tuples in the order of their keys. -/
def KeyOrdered (tuples : List Tuple) : Prop := tuples.Pairwise fun a b => compare a.key b.key ≠ .gt

theorem compare_bytes_trans {a b c : Bytes} (first : compare a b ≠ .gt)
    (second : compare b c ≠ .gt) : compare a c ≠ .gt :=
  Ordering.isLE_iff_ne_gt.mp (Std.TransCmp.isLE_trans (Ordering.isLE_iff_ne_gt.mpr first)
    (Ordering.isLE_iff_ne_gt.mpr second))

/-- Rows, and the fault that ends them, if there is one. -/
structure Outcome where
  rows : List Tuple
  fault : Option QueryFault
  deriving DecidableEq

namespace Outcome

/-- Rows that come to their end. -/
def complete (rows : List Tuple) : Outcome := ⟨rows, none⟩

/-- The outcome with a row in front. -/
def cons (tuple : Tuple) (outcome : Outcome) : Outcome := ⟨tuple :: outcome.rows, outcome.fault⟩

/-- The rows that satisfy a predicate, up to the first on which it fails, and else with the ending of the
input. -/
def selectRows (predicate : Expr) (ending : Option QueryFault) : List Tuple → Outcome
  | [] => ⟨[], ending⟩
  | tuple :: rest =>
    match predicate.evaluatePredicate tuple.row with
    | .error fault => ⟨[], some fault⟩
    | .ok true => cons tuple (selectRows predicate ending rest)
    | .ok false => selectRows predicate ending rest

/-- What a selection makes of an outcome. -/
def select (predicate : Expr) (outcome : Outcome) : Outcome :=
  selectRows predicate outcome.fault outcome.rows

/-- The first rows; the ending counts only if the rows do not reach the limit. -/
def limitRows (ending : Option QueryFault) : Nat → List Tuple → Outcome
  | 0, _ => complete []
  | _ + 1, [] => ⟨[], ending⟩
  | most + 1, tuple :: rest => cons tuple (limitRows ending most rest)

/-- What a limit makes of an outcome. -/
def limit (most : Nat) (outcome : Outcome) : Outcome :=
  limitRows outcome.fault most outcome.rows

end Outcome

/-! ### Asking until the end -/

/-- Asking for rows from a state gives an outcome. -/
inductive Delivers {ω : Type} (next : ω → Step ω (Option Tuple)) : ω → Outcome → Prop
  | finish {state : ω} (given : (next state).result = .ok none) :
      Delivers next state (Outcome.complete [])
  | fault {state : ω} {cause : QueryFault} (given : (next state).result = .error cause) :
      Delivers next state ⟨[], some cause⟩
  | row {state : ω} {tuple : Tuple} {outcome : Outcome}
      (given : (next state).result = .ok (some tuple))
      (others : Delivers next (next state).state outcome) :
      Delivers next state (outcome.cons tuple)

section Collect

variable {ω : Type} {next : ω → Step ω (Option Tuple)} {budget : ω → Nat}
  {law : ∀ state, budget (next state).state + (next state).rowCount ≤ budget state}

theorem collect_of_finish {state : ω} (given : (next state).result = .ok none) :
    collect next budget law state = ⟨[], none, (next state).state, (next state).events⟩ := by
  rw [collect]
  split
  · rename_i failed
    rw [given] at failed
    contradiction
  · rfl
  · rename_i more
    rw [given] at more
    injection more with same
    cases same

theorem collect_of_fault {state : ω} {cause : QueryFault}
    (given : (next state).result = .error cause) :
    collect next budget law state =
      ⟨[], some cause, (next state).state, (next state).events⟩ := by
  rw [collect]
  split
  · rename_i other failed
    rw [given] at failed
    injection failed with same
    rw [same]
  · rename_i finished
    rw [given] at finished
    contradiction
  · rename_i more
    rw [given] at more
    contradiction

theorem collect_of_row {state : ω} {tuple : Tuple}
    (given : (next state).result = .ok (some tuple)) :
    collect next budget law state =
      let others := collect next budget law (next state).state
      ⟨tuple :: others.rows, others.fault, others.state,
        (next state).events ++ others.events⟩ := by
  rw [collect]
  split
  · rename_i failed
    rw [given] at failed
    contradiction
  · rename_i finished
    rw [given] at finished
    injection finished with same
    cases same
  · rename_i other more
    rw [given] at more
    injection more with same
    injection same with same
    rw [same]

variable (law) in
/-- Collecting rows gives what is delivered. -/
theorem Delivers.collect {state : ω} {outcome : Outcome} (delivers : Delivers next state outcome) :
    (WideRow.collect next budget law state).rows = outcome.rows ∧
      (WideRow.collect next budget law state).fault = outcome.fault := by
  induction delivers with
  | finish given =>
    rw [collect_of_finish given]
    exact ⟨rfl, rfl⟩
  | fault given =>
    rw [collect_of_fault given]
    exact ⟨rfl, rfl⟩
  | row given _ ih =>
    obtain ⟨rows, fault⟩ := ih
    rw [collect_of_row given]
    exact ⟨congrArg (List.cons _) rows, fault⟩

end Collect

/-- Only the result and the state of the first step count. -/
theorem Delivers.of_step {ω : Type} {next : ω → Step ω (Option Tuple)} {state other : ω}
    {outcome : Outcome} (delivers : Delivers next state outcome)
    (sameResult : (next other).result = (next state).result)
    (sameState : (next other).state = (next state).state) : Delivers next other outcome := by
  cases delivers with
  | finish given => exact .finish (sameResult.trans given)
  | fault given => exact .fault (sameResult.trans given)
  | row given others => exact .row (sameResult.trans given) (sameState ▸ others)

/-- The operator is made ready without a fault and delivers the outcome then. -/
def Yields {ω : Type} [Operator ω] (state : ω) (outcome : Outcome) : Prop :=
  (Operator.init state).result = .ok () ∧
    Delivers Operator.next (Operator.init state).state outcome

/-! ### Layers over one input -/

namespace Selection

variable {ι : Type} [Bounded ι]

theorem advance_of_finish {predicate : Expr} {input : ι}
    (given : (Operator.next input).result = .ok none) :
    advance predicate input = Operator.next input := by
  rw [advance]
  split
  · rfl
  · rfl
  · rename_i more
    rw [given] at more
    injection more with same
    cases same

theorem advance_of_fault {predicate : Expr} {input : ι} {cause : QueryFault}
    (given : (Operator.next input).result = .error cause) :
    advance predicate input = Operator.next input := by
  rw [advance]
  split
  · rfl
  · rfl
  · rename_i more
    rw [given] at more
    injection more

theorem advance_of_row {predicate : Expr} {input : ι} {tuple : Tuple}
    (given : (Operator.next input).result = .ok (some tuple)) :
    advance predicate input =
      match predicate.evaluatePredicate tuple.row with
      | .error fault => ⟨.error fault, (Operator.next input).state, (Operator.next input).events⟩
      | .ok true => Operator.next input
      | .ok false =>
        (advance predicate (Operator.next input).state).after (Operator.next input).events := by
  rw [advance]
  split
  · rename_i failed
    rw [given] at failed
    injection failed
  · rename_i finished
    rw [given] at finished
    injection finished with same
    cases same
  · rename_i other more
    rw [given] at more
    injection more with same
    injection same with same
    subst same
    rfl

theorem next_of_ready (predicate : Expr) (input : ι) :
    Operator.next (⟨input, predicate, true⟩ : Selection ι) =
      (advance predicate input).within fun input => ⟨input, predicate, true⟩ := rfl

/-- A selection that is ready delivers what it selects of its input's outcome. -/
theorem delivers (predicate : Expr) {input : ι} {outcome : Outcome}
    (delivers : Delivers Operator.next input outcome) :
    Delivers Operator.next (⟨input, predicate, true⟩ : Selection ι)
      (outcome.select predicate) := by
  induction delivers with
  | finish given =>
    refine .finish ?_
    rw [next_of_ready, advance_of_finish given]
    exact given
  | fault given =>
    refine .fault ?_
    rw [next_of_ready, advance_of_fault given]
    exact given
  | @row input tuple outcome given _ ih =>
    have step := next_of_ready predicate input
    rw [advance_of_row given] at step
    unfold Outcome.select Outcome.cons Outcome.selectRows
    cases judged : predicate.evaluatePredicate tuple.row with
    | error cause =>
      rw [judged] at step
      refine .fault ?_
      rw [step]
      rfl
    | ok kept =>
      rw [judged] at step
      cases kept with
      | true =>
        refine .row ?_ ?_
        · rw [step]
          exact given
        · rw [step]
          exact ih
      | false =>
        -- the row is passed over: the step is that of the selection over the rest of the input
        refine ih.of_step ?_ ?_
        · rw [step]
          rfl
        · rw [step]
          rfl

theorem yields (predicate : Expr) (ready : Bool) {input : ι} {outcome : Outcome}
    (yields : Yields input outcome) :
    Yields (⟨input, predicate, ready⟩ : Selection ι) (outcome.select predicate) := by
  obtain ⟨started, delivers⟩ := yields
  have step : Operator.init (⟨input, predicate, ready⟩ : Selection ι) =
      (Operator.init input).within fun input => ⟨input, predicate, true⟩ := by
    show Selection.init _ = _
    rw [Selection.init]
    simp only [started]
  constructor
  · rw [step]
    exact started
  · rw [step]
    exact Selection.delivers predicate delivers

end Selection

namespace Limit

variable {ι : Type} [Bounded ι]

theorem next_of_reached {input : ι} {most returned : Nat} (reached : most ≤ returned) :
    (Operator.next (⟨input, most, returned, true⟩ : Limit ι)).result = .ok none := by
  show (Limit.next _).result = _
  rw [Limit.next]
  simp only [Bool.not_true, Bool.false_eq_true, if_false, if_pos reached]

theorem next_of_open {input : ι} {most returned : Nat} (below : returned < most) :
    Operator.next (⟨input, most, returned, true⟩ : Limit ι) =
      (Operator.next input).within fun input' =>
        ⟨input', most, returned + (Operator.next input).rowCount, true⟩ := by
  show Limit.next _ = _
  rw [Limit.next]
  simp only [Bool.not_true, Bool.false_eq_true, if_false, if_neg (Nat.not_le.mpr below)]

/-- A limit that is ready delivers the rows that it still allows. -/
theorem delivers {input : ι} {outcome : Outcome} (delivers : Delivers Operator.next input outcome)
    (allowed returned : Nat) :
    Delivers Operator.next (⟨input, returned + allowed, returned, true⟩ : Limit ι)
      (outcome.limit allowed) := by
  induction delivers generalizing allowed returned with
  | finish given =>
    cases allowed with
    | zero => exact .finish (next_of_reached (Nat.le_refl _))
    | succ allowed =>
      refine .finish ?_
      rw [next_of_open (by omega)]
      exact given
  | fault given =>
    cases allowed with
    | zero => exact .finish (next_of_reached (Nat.le_refl _))
    | succ allowed =>
      refine .fault ?_
      rw [next_of_open (by omega)]
      exact given
  | @row input tuple outcome given _ ih =>
    cases allowed with
    | zero => exact .finish (next_of_reached (Nat.le_refl _))
    | succ allowed =>
      have step : Operator.next (⟨input, returned + (allowed + 1), returned, true⟩ : Limit ι) =
          _ := next_of_open (by omega)
      refine .row ?_ ?_
      · rw [step]
        exact given
      · have one : (Operator.next input).rowCount = 1 := by
          rw [Step.rowCount, given]
          rfl
        rw [step, one, show returned + (allowed + 1) = returned + 1 + allowed by omega]
        exact ih allowed (returned + 1)

theorem yields (most returned : Nat) (ready : Bool) {input : ι} {outcome : Outcome}
    (yields : Yields input outcome) :
    Yields (⟨input, most, returned, ready⟩ : Limit ι) (outcome.limit most) := by
  obtain ⟨started, delivers⟩ := yields
  have step : Operator.init (⟨input, most, returned, ready⟩ : Limit ι) =
      (Operator.init input).within fun input => ⟨input, most, 0, true⟩ := by
    show Limit.init _ = _
    rw [Limit.init]
    simp only [started]
  constructor
  · rw [step]
    exact started
  · rw [step]
    have rows := Limit.delivers delivers most 0
    rw [Nat.zero_add] at rows
    exact rows

end Limit

/-! ### Stages and sequences -/

namespace Stage

variable {ι : Type} [Bounded ι]

/-- A layer over a state delivers what the state does, if its steps are those of the state. -/
theorem delivers_of_within {ω : Type} [Operator ω] {wrap : ω → Stage ι}
    (steps : ∀ state, Operator.next (wrap state) = (Operator.next state).within wrap) {state : ω}
    {outcome : Outcome} (delivers : Delivers Operator.next state outcome) :
    Delivers Operator.next (wrap state) outcome := by
  induction delivers with
  | finish given =>
    refine .finish ?_
    rw [steps]
    exact given
  | fault given =>
    refine .fault ?_
    rw [steps]
    exact given
  | row given _ ih =>
    refine .row ?_ ?_
    · rw [steps]
      exact given
    · rw [steps]
      exact ih

/-- The same of what they yield, if the layer is also made ready like the state. -/
theorem yields_of_within {ω : Type} [Operator ω] {wrap : ω → Stage ι}
    (starts : ∀ state, Operator.init (wrap state) = (Operator.init state).within wrap)
    (steps : ∀ state, Operator.next (wrap state) = (Operator.next state).within wrap) {state : ω}
    {outcome : Outcome} (yields : Yields state outcome) : Yields (wrap state) outcome := by
  obtain ⟨started, delivers⟩ := yields
  constructor
  · rw [starts]
    exact started
  · rw [starts]
    exact delivers_of_within steps delivers

theorem yields_pass {input : ι} {outcome : Outcome} (yields : Yields input outcome) :
    Yields (pass input) outcome :=
  yields_of_within (fun _ => rfl) (fun _ => rfl) yields

theorem yields_selection {rows : Selection ι} {outcome : Outcome} (yields : Yields rows outcome) :
    Yields (selection rows) outcome :=
  yields_of_within (fun _ => rfl) (fun _ => rfl) yields

theorem yields_limit {rows : Limit ι} {outcome : Outcome} (yields : Yields rows outcome) :
    Yields (limit rows) outcome :=
  yields_of_within (fun _ => rfl) (fun _ => rfl) yields

theorem yields_merge {rows : Merge ι} {outcome : Outcome} (yields : Yields rows outcome) :
    Yields (merge rows) outcome :=
  yields_of_within (fun _ => rfl) (fun _ => rfl) yields

end Stage

namespace RowSequence

variable {ω : Type}

section Transitions

variable [Operator ω] {root : ω}

theorem advance_of_row {tuple : Tuple} (given : (Operator.next root).result = .ok (some tuple)) :
    advance root =
      ⟨.ok (some tuple), running (Operator.next root).state, (Operator.next root).events⟩ := by
  rw [advance, given]

theorem advance_of_end (given : (Operator.next root).result = .ok none) :
    advance root =
      ⟨.ok none, finished (Operator.close (Operator.next root).state).state,
        (Operator.next root).events ++ (Operator.close (Operator.next root).state).events⟩ := by
  rw [advance, given]

theorem advance_of_fault {fault : QueryFault} (given : (Operator.next root).result = .error fault) :
    advance root = (fail fault (Operator.next root).state).after (Operator.next root).events := by
  rw [advance, given]

variable (root) in
/-- Everything that asking an operator for a row may come to. -/
theorem advance_cases :
    (∃ tuple, (Operator.next root).result = .ok (some tuple) ∧
      advance root =
        ⟨.ok (some tuple), running (Operator.next root).state, (Operator.next root).events⟩) ∨
    ((Operator.next root).result = .ok none ∧
      advance root =
        ⟨.ok none, finished (Operator.close (Operator.next root).state).state,
          (Operator.next root).events ++ (Operator.close (Operator.next root).state).events⟩) ∨
    (∃ fault, (Operator.next root).result = .error fault ∧
      advance root =
        (fail fault (Operator.next root).state).after (Operator.next root).events) := by
  cases given : (Operator.next root).result with
  | error fault => exact .inr (.inr ⟨fault, rfl, advance_of_fault given⟩)
  | ok row =>
    cases row with
    | none => exact .inr (.inl ⟨rfl, advance_of_end given⟩)
    | some tuple => exact .inl ⟨tuple, rfl, advance_of_row given⟩

theorem next_of_started (started : (Operator.init root).result = .ok ()) :
    RowSequence.next (waiting root) =
      (advance (Operator.init root).state).after (Operator.init root).events := by
  rw [RowSequence.next, started]

theorem next_of_refused {fault : QueryFault} (refused : (Operator.init root).result = .error fault) :
    RowSequence.next (waiting root) =
      (fail fault (Operator.init root).state).after (Operator.init root).events := by
  rw [RowSequence.next, refused]

end Transitions

theorem delivers_of_running [Operator ω] {root : ω} {outcome : Outcome}
    (delivers : Delivers Operator.next root outcome) :
    Delivers RowSequence.next (running root) outcome := by
  induction delivers with
  | finish given =>
    refine .finish ?_
    simp only [RowSequence.next, advance, given]
  | fault given =>
    refine .fault ?_
    simp only [RowSequence.next, advance, given, fail, Step.after]
  | @row root tuple outcome given _ ih =>
    have step : RowSequence.next (running root) =
        ⟨.ok (some tuple), running (Operator.next root).state, (Operator.next root).events⟩ := by
      simp only [RowSequence.next, advance, given]
    refine .row ?_ ?_
    · rw [step]
    · rw [step]
      exact ih

/-- A sequence of rows delivers what its operator yields. -/
theorem delivers_of_yields [Operator ω] {root : ω} {outcome : Outcome}
    (yields : Yields root outcome) : Delivers RowSequence.next (waiting root) outcome := by
  obtain ⟨started, delivers⟩ := yields
  have step : RowSequence.next (waiting root) =
      (advance (Operator.init root).state).after (Operator.init root).events := by
    simp only [RowSequence.next, started]
  refine (delivers_of_running delivers).of_step ?_ ?_
  · rw [step]
    rfl
  · rw [step]
    rfl

/-- The sequence after a number of further requests. -/
def afterRequests [Operator ω] : Nat → RowSequence ω → RowSequence ω
  | 0, rows => rows
  | count + 1, rows => afterRequests count (RowSequence.next rows).state

/-- What a sequence answers once its rows have ended with or without a fault. -/
def settledAnswer : Option QueryFault → Fallible (Option Tuple)
  | none => .ok none
  | some _ => .error .aborted

/-- A sequence that has ended, with or without a fault. -/
inductive Settled : Option QueryFault → RowSequence ω → Prop
  | finished (root : ω) : Settled none (finished root)
  | failed (cause : QueryFault) (root : Option ω) : Settled (some cause) (failed root)

theorem Settled.next_result [Operator ω] {fault : Option QueryFault} {rows : RowSequence ω}
    (settled : Settled fault rows) : (RowSequence.next rows).result = settledAnswer fault := by
  cases settled with
  | finished root => rfl
  | failed cause root => rfl

theorem Settled.next_state [Operator ω] {fault : Option QueryFault} {rows : RowSequence ω}
    (settled : Settled fault rows) : (RowSequence.next rows).state = rows := by
  cases settled with
  | finished root => rfl
  | failed cause root => rfl

theorem Settled.afterRequests [Operator ω] {fault : Option QueryFault} {rows : RowSequence ω}
    (settled : Settled fault rows) (count : Nat) : rows.afterRequests count = rows := by
  induction count with
  | zero => rfl
  | succ count ih => rw [RowSequence.afterRequests, settled.next_state, ih]

theorem settled_of_advance_finish [Operator ω] {root : ω}
    (given : (advance root).result = .ok none) : Settled none (advance root).state := by
  unfold advance at given ⊢
  cases step : (Operator.next root).result with
  | error cause => simp only [step, fail, Step.after, reduceCtorEq] at given
  | ok row =>
    cases row with
    | none =>
      simp only [step]
      exact .finished _
    | some tuple => simp only [step, Except.ok.injEq, reduceCtorEq] at given

theorem settled_of_advance_fault [Operator ω] {root : ω} {cause : QueryFault}
    (given : (advance root).result = .error cause) : Settled (some cause) (advance root).state := by
  unfold advance at given ⊢
  cases step : (Operator.next root).result with
  | error other =>
    simp only [step, fail, Step.after]
    exact .failed _ _
  | ok row => cases row <;> simp only [step, reduceCtorEq] at given

theorem settled_of_finish [Operator ω] {rows : RowSequence ω}
    (given : (RowSequence.next rows).result = .ok none) :
    Settled none (RowSequence.next rows).state := by
  cases rows with
  | refused fault => cases given
  | waiting root =>
    unfold RowSequence.next at given ⊢
    cases started : (Operator.init root).result with
    | error cause => simp only [started, fail, Step.after, reduceCtorEq] at given
    | ok _ =>
      simp only [started] at given ⊢
      exact settled_of_advance_finish given
  | running root => exact settled_of_advance_finish given
  | finished root => exact .finished root
  | failed root => cases given

theorem settled_of_fault [Operator ω] {rows : RowSequence ω} {cause : QueryFault}
    (given : (RowSequence.next rows).result = .error cause) :
    Settled (some cause) (RowSequence.next rows).state := by
  cases rows with
  | refused fault => exact .failed _ _
  | waiting root =>
    unfold RowSequence.next at given ⊢
    cases started : (Operator.init root).result with
    | error other =>
      simp only [started, fail, Step.after]
      exact .failed _ _
    | ok _ =>
      simp only [started] at given ⊢
      exact settled_of_advance_fault given
  | running root => exact settled_of_advance_fault given
  | finished root => cases given
  | failed root => exact .failed _ _

/-- After its last row every sequence is settled, with the ending that it has delivered. -/
theorem settled_collect [Bounded ω] {rows : RowSequence ω} {outcome : Outcome}
    (delivers : Delivers RowSequence.next rows outcome) :
    Settled outcome.fault rows.collect.state := by
  unfold RowSequence.collect
  induction delivers with
  | finish given =>
    rw [collect_of_finish given]
    exact settled_of_finish given
  | fault given =>
    rw [collect_of_fault given]
    exact settled_of_fault given
  | row given _ ih =>
    rw [collect_of_row given]
    exact ih

end RowSequence

end WideRow
