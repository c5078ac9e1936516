import WideRow.Stream.Scan
import WideRow.Stream.Stage

/-!
# What operators have to close

An operator holds sources.  What closing it would close at a given time is what it owes: a scan its
source once it is ready, a layer what its inputs owe.  That is a balance.  Closing an operator closes what
it owes (`Custodian.close_owed`); asking it for rows closes nothing and leaves it owing the same, whatever
the sources reply (`Custodian.next_keeps`).

An operator owes its sources only after it has been made ready: `Holds state names` says that it owes
them from then on.
-/

namespace WideRow

/-- The name of the source that an event closes. -/
def Event.closing? : Event → Option String
  | .closed name => some name
  | _ => none

/-- The names of the sources that some events close. -/
def closings (events : List Event) : List String := events.filterMap Event.closing?

theorem closings_append (earlier later : List Event) :
    closings (earlier ++ later) = closings earlier ++ closings later := List.filterMap_append

/-- What is seen of closing a source: its name, or nothing if closing does nothing. -/
def Source.closings (source : Source) : List String :=
  if source.silent then [] else [source.name]

theorem Source.closings_eq_nil (source : Source) : source.closings = [] ↔ source.silent = true := by
  unfold closings
  cases source.silent with
  | true => exact iff_of_true rfl rfl
  | false => exact iff_of_false (List.cons_ne_nil _ _) Bool.false_ne_true

theorem closings_closeEvents (source : Source) :
    closings source.closeEvents = source.closings := by
  unfold Source.closeEvents Source.closings
  cases source.silent <;> rfl

/-- A step that closes nothing and after which some sources are owed. -/
structure Step.Keeps {ω α : Type} (owed : ω → List String) (names : List String) (step : Step ω α) :
    Prop where
  owes : owed step.state = names
  quiet : closings step.events = []

namespace Step.Keeps

variable {ω ω' α : Type} {owed : ω → List String} {names : List String} {step : Step ω α}

theorem within {owed' : ω' → List String} {rebuild : ω → ω'}
    (same : ∀ state, owed' (rebuild state) = owed state) (keeps : Keeps owed names step) :
    Keeps owed' names (step.within rebuild) := ⟨(same step.state).trans keeps.owes, keeps.quiet⟩

theorem after {earlier : List Event} (quiet : closings earlier = []) (keeps : Keeps owed names step) :
    Keeps owed names (step.after earlier) := by
  refine ⟨keeps.owes, ?_⟩
  show closings (earlier ++ step.events) = []
  rw [closings_append, quiet, keeps.quiet]
  rfl

end Step.Keeps

/-- An operator that closes what it owes and nothing else. -/
class Custodian (ω : Type) extends Bounded ω where
  /-- The sources that closing the operator would close. -/
  owed : ω → List String
  close_owed : ∀ state, closings (close state).events = owed state
  next_keeps : ∀ state, (next state).Keeps owed (owed state)

/-- Once it has been made ready, successfully or not, the operator owes some sources. -/
def Holds {ω : Type} [Custodian ω] (state : ω) (names : List String) : Prop :=
  (Operator.init state).Keeps Custodian.owed names

/-! ### Scans -/

namespace Scan

/-- A scan owes its source while it is ready. -/
def owed (scan : Scan) : List String := if scan.ready then scan.source.closings else []

theorem close_owed (scan : Scan) : closings (close scan).events = owed scan := by
  unfold close owed
  cases scan.ready with
  | false => rfl
  | true =>
    rw [if_pos rfl, ← closings_closeEvents]
    cases scan.source.close <;> rfl

/-- Another state of the same source is owed just the same. -/
theorem owed_of_source {scan later : Scan} (ready : later.ready = scan.ready)
    (closings : later.source.closings = scan.source.closings) : owed later = owed scan := by
  rw [owed, owed, ready, closings]

theorem fetch_closings (source : Source) : source.fetch.2.closings = source.closings := by
  unfold Source.fetch
  cases source.replies <;> rfl

theorem deliver_owed (scan : Scan) (record : Bytes) (rest : List Bytes) :
    owed (deliver scan record rest).2 = owed scan := by
  unfold deliver
  cases Tuple.ofBytes record with
  | error fault => rfl
  | ok tuple =>
    simp only
    split <;> rfl

theorem refill_owed (scan : Scan) : owed (refill scan).2 = owed scan := by
  have kept := fetch_closings scan.source
  unfold refill
  rcases fetched : scan.source.fetch with ⟨reply, source⟩
  rw [fetched] at kept
  cases reply with
  | error failure => exact owed_of_source rfl kept
  | ok batch =>
    cases batch with
    | nil => exact owed_of_source rfl kept
    | cons record rest =>
      rw [deliver_owed]
      exact owed_of_source rfl kept

theorem closing?_fetchEvent (name : String) (size : Nat)
    (reply : Except SourceFailure (List Bytes)) :
    (Source.fetchEvent name size reply).closing? = none := by
  cases reply <;> rfl

theorem next_keeps (scan : Scan) : (next scan).Keeps owed (owed scan) := by
  unfold next
  split
  · exact ⟨rfl, rfl⟩
  split
  · exact ⟨rfl, rfl⟩
  cases scan.buffered with
  | cons record rest => exact ⟨deliver_owed scan record rest, rfl⟩
  | nil =>
    simp only
    split
    · exact ⟨rfl, rfl⟩
    · exact ⟨refill_owed scan, List.filterMap_cons_none (closing?_fetchEvent _ _ _)⟩

instance : Custodian Scan where
  owed := owed
  close_owed := close_owed
  next_keeps := next_keeps

/-- A scan that has been made ready owes its source. -/
theorem holds (scan : Scan) : Holds scan scan.source.closings := ⟨rfl, rfl⟩

end Scan

/-! ### Layers over one input -/

namespace Selection

variable {ι : Type} [Custodian ι]

theorem advance_keeps (predicate : Expr) (input : ι) :
    (advance predicate input).Keeps Custodian.owed (Custodian.owed input) := by
  fun_induction advance predicate input with
  | case1 input step fault given => exact Custodian.next_keeps input
  | case2 input step given => exact Custodian.next_keeps input
  | case3 input step tuple given fault failed =>
    obtain ⟨owes, quiet⟩ := Custodian.next_keeps input
    exact ⟨owes, quiet⟩
  | case4 input step tuple given kept => exact Custodian.next_keeps input
  | case5 input step tuple given dropped ih =>
    obtain ⟨owes, quiet⟩ := Custodian.next_keeps input
    have others : (advance predicate step.state).Keeps Custodian.owed (Custodian.owed input) :=
      ⟨ih.owes.trans owes, ih.quiet⟩
    exact others.after quiet

instance : Custodian (Selection ι) where
  owed selection := Custodian.owed selection.input
  close_owed selection := Custodian.close_owed selection.input
  next_keeps selection := by
    show (next selection).Keeps _ _
    unfold next
    split
    · exact ⟨rfl, rfl⟩
    · exact (advance_keeps selection.predicate selection.input).within fun _ => rfl

theorem holds {selection : Selection ι} {names : List String}
    (holds : Holds selection.input names) : Holds selection names := by
  show (init selection).Keeps _ names
  unfold init
  simp only
  split
  · exact holds.within fun _ => rfl
  · exact holds.within fun _ => rfl

end Selection

namespace Limit

variable {ι : Type} [Custodian ι]

instance : Custodian (Limit ι) where
  owed limit := Custodian.owed limit.input
  close_owed limit := Custodian.close_owed limit.input
  next_keeps limit := by
    show (next limit).Keeps _ _
    unfold next
    split
    · exact ⟨rfl, rfl⟩
    split
    · exact ⟨rfl, rfl⟩
    · exact (Custodian.next_keeps limit.input).within fun _ => rfl

theorem holds {limit : Limit ι} {names : List String} (holds : Holds limit.input names) :
    Holds limit names := by
  show (init limit).Keeps _ names
  unfold init
  simp only
  split
  · exact holds.within fun _ => rfl
  · exact holds.within fun _ => rfl

end Limit

/-! ### Merges -/

namespace Merge

variable {ι : Type} [Custodian ι]

/-- What the inputs of some lanes owe, in order. -/
def lanesOwed (lanes : List (Lane ι)) : List String :=
  lanes.flatMap fun lane => Custodian.owed lane.input

theorem lanesOwed_cons (lane : Lane ι) (rest : List (Lane ι)) :
    lanesOwed (lane :: rest) = Custodian.owed lane.input ++ lanesOwed rest := List.flatMap_cons

theorem lanesOwed_append (before after : List (Lane ι)) :
    lanesOwed (before ++ after) = lanesOwed before ++ lanesOwed after := List.flatMap_append

theorem lanesOwed_clearHeads (lanes : List (Lane ι)) :
    lanesOwed (clearHeads lanes) = lanesOwed lanes := List.flatMap_map ..

theorem closeAll_owed (lanes : List (Lane ι)) :
    closings (closeAll lanes).events = lanesOwed lanes := by
  induction lanes with
  | nil => rfl
  | cons lane rest ih =>
    have whole : (closeAll (lane :: rest)).events =
        (Operator.close lane.input).events ++ (closeAll rest).events := by
      rw [closeAll]
      cases (Operator.close lane.input).result <;> rfl
    rw [whole, closings_append, ih, Custodian.close_owed, lanesOwed_cons]

/-- Taking first rows closes nothing, also if one of the inputs fails. -/
theorem pullAll_keeps (lanes : List (Lane ι)) :
    (pullAll lanes).Keeps lanesOwed (lanesOwed lanes) := by
  induction lanes with
  | nil => exact ⟨rfl, rfl⟩
  | cons lane rest ih =>
    obtain ⟨owes, quiet⟩ := Custodian.next_keeps lane.input
    rw [pullAll]
    cases (Operator.next lane.input).result with
    | error fault =>
      refine ⟨?_, quiet⟩
      rw [lanesOwed_cons, lanesOwed_cons, owes]
    | ok row =>
      refine .after quiet ⟨?_, ih.quiet⟩
      simp only [Step.within, lanesOwed_cons, owes, ih.owes]

theorem next_keeps (merge : Merge ι) :
    (next merge).Keeps (fun merge => lanesOwed merge.lanes) (lanesOwed merge.lanes) := by
  unfold next
  split
  · exact ⟨rfl, rfl⟩
  split
  · exact ⟨rfl, rfl⟩
  · rename_i choice chosen
    obtain ⟨owes, quiet⟩ := Custodian.next_keeps choice.input
    have kept : lanesOwed (choice.before ++
        ⟨(Operator.next choice.input).state, headOf (Operator.next choice.input)⟩ :: choice.after) =
        lanesOwed merge.lanes := by
      rw [choose_lanes chosen, lanesOwed_append, lanesOwed_append, lanesOwed_cons, lanesOwed_cons,
        owes]
    simp only
    split
    · exact ⟨kept, quiet⟩
    · exact ⟨kept, quiet⟩

instance : Custodian (Merge ι) where
  owed merge := lanesOwed merge.lanes
  close_owed merge := (closeAll_owed (clearHeads merge.lanes)).trans (lanesOwed_clearHeads merge.lanes)
  next_keeps := next_keeps

/-- Inputs that cannot fail to be made ready owe what they hold. -/
theorem initAll_keeps (names : ι → List String) (lanes : List (Lane ι))
    (ready : ∀ lane ∈ lanes, (Operator.init lane.input).result = .ok ())
    (holds : ∀ lane ∈ lanes, Holds lane.input (names lane.input)) :
    (initAll lanes).result = .ok () ∧
      (initAll lanes).Keeps lanesOwed (lanes.flatMap fun lane => names lane.input) := by
  induction lanes with
  | nil => exact ⟨rfl, rfl, rfl⟩
  | cons lane rest ih =>
    obtain ⟨owes, quiet⟩ := holds lane List.mem_cons_self
    obtain ⟨started, others⟩ := ih
      (fun other member => ready other (List.mem_cons_of_mem _ member))
      (fun other member => holds other (List.mem_cons_of_mem _ member))
    rw [initAll, ready lane List.mem_cons_self]
    refine ⟨started, .after quiet ⟨?_, others.quiet⟩⟩
    simp only [Step.within, lanesOwed_cons, owes, others.owes, List.flatMap_cons]

/-- If no input of a merge can fail to be made ready, the merge holds the sources of all of them, also if
it cannot take their first rows.  An input that failed would keep those after it from being made ready,
and these would owe nothing. -/
theorem holds (names : ι → List String) {merge : Merge ι}
    (ready : ∀ lane ∈ merge.lanes, (Operator.init lane.input).result = .ok ())
    (holds : ∀ lane ∈ merge.lanes, Holds lane.input (names lane.input)) :
    Holds merge (merge.lanes.flatMap fun lane => names lane.input) := by
  obtain ⟨started, made⟩ := initAll_keeps names (clearHeads merge.lanes)
    (List.forall_mem_map.mpr ready) (List.forall_mem_map.mpr holds)
  have pulled := (pullAll_keeps (initAll (clearHeads merge.lanes)).state).after made.quiet
  have whole : ((clearHeads merge.lanes).flatMap fun lane => names lane.input) =
      merge.lanes.flatMap fun lane => names lane.input := List.flatMap_map ..
  rw [made.owes, whole] at pulled
  show (init merge).Keeps _ _
  unfold init
  simp only [started]
  split
  · exact pulled.within fun _ => rfl
  · exact pulled.within fun _ => rfl

end Merge

/-! ### Stages -/

namespace Stage

variable {ι : Type} [Custodian ι]

/-- What a layer owes. -/
def owed : Stage ι → List String
  | pass input => Custodian.owed input
  | selection s => Custodian.owed s
  | limit l => Custodian.owed l
  | merge m => Custodian.owed m

instance : Custodian (Stage ι) where
  owed := owed
  close_owed stage := by
    cases stage with
    | pass input => exact Custodian.close_owed input
    | selection s => exact Custodian.close_owed s
    | limit l => exact Custodian.close_owed l
    | merge m => exact Custodian.close_owed m
  next_keeps stage := by
    cases stage with
    | pass input => exact (Custodian.next_keeps input).within fun _ => rfl
    | selection s => exact (Custodian.next_keeps s).within fun _ => rfl
    | limit l => exact (Custodian.next_keeps l).within fun _ => rfl
    | merge m => exact (Custodian.next_keeps m).within fun _ => rfl

theorem holds_pass {input : ι} {names : List String} (holds : Holds input names) :
    Holds (pass input) names := holds.within fun _ => rfl

theorem holds_selection {rows : Selection ι} {names : List String} (holds : Holds rows names) :
    Holds (selection rows) names := holds.within fun _ => rfl

theorem holds_limit {rows : Limit ι} {names : List String} (holds : Holds rows names) :
    Holds (limit rows) names := holds.within fun _ => rfl

theorem holds_merge {rows : Merge ι} {names : List String} (holds : Holds rows names) :
    Holds (merge rows) names := holds.within fun _ => rfl

end Stage

end WideRow
