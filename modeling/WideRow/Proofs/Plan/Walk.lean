import WideRow.Proofs.Plan.Serving
import WideRow.Proofs.Stream.Merging

/-!
# A plan walks the store

`Plan.walk` is the plain meaning of a plan: go through the whole store in the order of its keys, keep the
rows that all filters accept and on which the residual condition holds, and stop at the limit or at the
first row on which the condition fails.  It knows nothing of splits, scans, batches and merges.

The layers of a scanner are matched with it one by one: segments (`openSegments_yields`,
`mergeSegments_yields`), residual condition (`selectRows_yields`), limit (`limitRows_yields`), and the
walk is the composition of what they do to outcomes (`walkFrom_eq`).  Main statement:
`scanner_collect_eq_walk`.
-/

namespace WideRow

namespace Plan

/-! ### The plain meaning -/

/-- Whether the residual condition holds on a row; without a condition it does. -/
def holdsOn (residual : Option Expr) (tuple : Tuple) : Fallible Bool :=
  match residual with
  | some condition => condition.evaluatePredicate tuple.row
  | none => .ok true

/-- Whether a plan keeps a row of the store. -/
def keep (plan : Plan) (tuple : Tuple) : Fallible Bool :=
  if acceptedBy plan.filters tuple then holdsOn plan.residual tuple else .ok false

/-- Walks rows of the store, with a limit on how many more are kept. -/
def walkFrom (plan : Plan) (limit : Option Nat) : List Tuple → Outcome
  | [] => Outcome.complete []
  | tuple :: rest =>
    if limit = some 0 then Outcome.complete []
    else
      match plan.keep tuple with
      | .error fault => ⟨[], some fault⟩
      | .ok true => Outcome.cons tuple (walkFrom plan (limit.map Nat.pred) rest)
      | .ok false => walkFrom plan limit rest

/-- What a plan makes of a store. -/
def walk (plan : Plan) (store : List Tuple) : Outcome := plan.walkFrom plan.statement.limit store

/-! ### The layers -/

/-- What the residual condition makes of an outcome. -/
def selected (residual : Option Expr) (outcome : Outcome) : Outcome :=
  match residual with
  | some condition => outcome.select condition
  | none => outcome

/-- What the limit makes of an outcome. -/
def limited (limit : Option Nat) (outcome : Outcome) : Outcome :=
  match limit with
  | some most => outcome.limit most
  | none => outcome

theorem selectRows_yields (residual : Option Expr) {segments : Stage Scan} {outcome : Outcome}
    (yields : Yields segments outcome) :
    Yields (selectRows residual segments) (selected residual outcome) := by
  cases residual with
  | none => exact Stage.yields_pass yields
  | some condition => exact Stage.yields_selection (Selection.yields condition false yields)

theorem limitRows_yields (limit : Option Nat) {rows : Stage (Stage Scan)} {outcome : Outcome}
    (yields : Yields rows outcome) : Yields (limitRows limit rows) (limited limit outcome) := by
  cases limit with
  | none => exact Stage.yields_pass yields
  | some most => exact Stage.yields_limit (Limit.yields most 0 false yields)

theorem mergeSegments_yields {scans : List Scan} {inputs : List (List Tuple)} {rows : List Tuple}
    (merged : Merged inputs rows)
    (yields : List.Forall₂ (fun scan rows => Yields scan (Outcome.complete rows)) scans inputs) :
    Yields (mergeSegments scans) (Outcome.complete rows) := by
  have lanes : Yields (⟨scans.map fun scan => ⟨scan, none⟩, false⟩ : Merge Scan)
      (Outcome.complete rows) :=
    Merge.yields merged (List.forall₂_map_left_iff.mpr yields) false
  simp only [mergeSegments]
  split
  · -- one segment stands for itself, and nothing but its own rows can be taken from it
    rename_i scan
    cases yields with
    | cons first others =>
      cases others
      rw [merged.eq_of_single]
      exact Stage.yields_pass first
  · exact Stage.yields_merge lanes

/-- What the request for a split wants: the accepted rows of the store whose keys lie in the split. -/
theorem filter_wants_request (plan : Plan) (range : KeyRange) (store : List Tuple) :
    store.filter (plan.request range).wants =
      (store.filter (acceptedBy plan.filters)).filter fun tuple => range.contains tuple.key := by
  rw [List.filter_filter]
  refine List.filter_congr ?_
  intro tuple _
  show ((range.contains tuple.key || false) && acceptedBy plan.filters tuple) = _
  rw [Bool.or_false]

/-- An opener that is faithful on the requests for the splits opens them all, with scans that yield the
rows of the splits. -/
theorem openSegments_yields {κ : Type} [Opener κ] (plan : Plan) {store : List Tuple}
    (formed : WellFormed store) (ordered : KeyOrdered store) (splits : List KeyRange) {opener : κ}
    (faithful : Faithful store opener (splits.map plan.request)) :
    ∃ scans, (plan.openSegments opener splits).result = .ok scans ∧
      List.Forall₂ (fun scan rows => Yields scan (Outcome.complete rows)) scans
        (divideRows (splits.map KeyRange.contains) (store.filter (acceptedBy plan.filters))) := by
  induction splits generalizing opener with
  | nil => exact ⟨[], rfl, .nil⟩
  | cons range rest ih =>
    cases faithful with
    | opened scan supplies others =>
      obtain ⟨scans, result, yieldsRest⟩ := ih others
      rw [plan.filter_wants_request] at supplies
      have sub := (List.filter_sublist (p := fun tuple : Tuple => range.contains tuple.key)
        (l := store.filter (acceptedBy plan.filters))).trans List.filter_sublist
      have first := Scan.yields (fun tuple member => formed tuple (sub.subset member))
        (ordered.sublist sub) (plan.label range) plan.config supplies
      refine ⟨_ :: scans, ?_, .cons first yieldsRest⟩
      rw [openSegments, scan]
      simp only [Step.after, result]

/-! ### The walk as the composition of the layers -/

theorem selected_nil (residual : Option Expr) :
    selected residual (Outcome.complete []) = Outcome.complete [] := by
  cases residual <;> rfl

theorem selected_cons (residual : Option Expr) (tuple : Tuple) (rows : List Tuple) :
    selected residual (Outcome.complete (tuple :: rows)) =
      match holdsOn residual tuple with
      | .error fault => ⟨[], some fault⟩
      | .ok true => Outcome.cons tuple (selected residual (Outcome.complete rows))
      | .ok false => selected residual (Outcome.complete rows) := by
  cases residual with
  | none => rfl
  | some condition =>
    show Outcome.selectRows condition none (tuple :: rows) = _
    rw [Outcome.selectRows]
    rfl

theorem limited_zero (outcome : Outcome) : limited (some 0) outcome = Outcome.complete [] := by
  show Outcome.limitRows outcome.fault 0 outcome.rows = _
  rw [Outcome.limitRows]

theorem limited_nil {limit : Option Nat} (open_ : limit ≠ some 0) (ending : Option QueryFault) :
    limited limit ⟨[], ending⟩ = ⟨[], ending⟩ := by
  cases limit with
  | none => rfl
  | some most =>
    cases most with
    | zero => exact absurd rfl open_
    | succ most => rfl

theorem limited_cons {limit : Option Nat} (open_ : limit ≠ some 0) (tuple : Tuple)
    (outcome : Outcome) :
    limited limit (outcome.cons tuple) = (limited (limit.map Nat.pred) outcome).cons tuple := by
  cases limit with
  | none => rfl
  | some most =>
    cases most with
    | zero => exact absurd rfl open_
    | succ most => rfl

/-- The walk is what the layers make of the accepted rows of the store. -/
theorem walkFrom_eq (plan : Plan) (limit : Option Nat) (store : List Tuple) :
    plan.walkFrom limit store = limited limit (selected plan.residual
      (Outcome.complete (store.filter (acceptedBy plan.filters)))) := by
  induction store generalizing limit with
  | nil =>
    rw [walkFrom, List.filter_nil, selected_nil]
    by_cases closed : limit = some 0
    · rw [closed, limited_zero]
    · exact (limited_nil closed none).symm
  | cons tuple rest ih =>
    rw [walkFrom]
    by_cases closed : limit = some 0
    · rw [if_pos closed, closed, limited_zero]
    rw [if_neg closed, keep]
    by_cases accepted : acceptedBy plan.filters tuple = true
    · rw [if_pos accepted, List.filter_cons_of_pos accepted, selected_cons]
      cases holdsOn plan.residual tuple with
      | error fault => exact (limited_nil closed (some fault)).symm
      | ok kept =>
        cases kept with
        | true => exact (congrArg (Outcome.cons tuple) (ih _)).trans (limited_cons closed _ _).symm
        | false => exact ih limit
    · rw [if_neg accepted, List.filter_cons_of_neg accepted]
      exact ih limit

/-- The operators over the segments of the splits yield the walk of the store. -/
theorem assemble_yields (plan : Plan) {store : List Tuple} (ordered : KeyOrdered store)
    (once : ∀ tuple ∈ store, plan.splits.countP (fun range => range.contains tuple.key) = 1)
    {scans : List Scan}
    (segments : List.Forall₂ (fun scan rows => Yields scan (Outcome.complete rows)) scans
      (divideRows (plan.splits.map KeyRange.contains)
        (store.filter (acceptedBy plan.filters)))) :
    Yields (plan.assemble scans) (plan.walk store) := by
  have merged : Merged (divideRows (plan.splits.map KeyRange.contains)
      (store.filter (acceptedBy plan.filters))) (store.filter (acceptedBy plan.filters)) := by
    refine Merged.of_partition (ordered.sublist List.filter_sublist) ?_
    intro tuple member
    rw [List.countP_map]
    exact once tuple (List.mem_of_mem_filter member)
  rw [walk, walkFrom_eq]
  exact limitRows_yields _ (selectRows_yields _ (mergeSegments_yields merged segments))

/-- **A plan gives the rows of the plain walk.**  Whatever the splits, if every key of the store lies in
exactly one of them, and whatever the opener, if it is faithful on the requests of the plan, one for each
split: however the records are cut into batches, going through the rows of the plan gives the rows and the
fault of the walk of the store.  After that the sequence is settled: it answers every further request with
the end, or with a refusal if there was a fault. -/
theorem scanner_collect_eq_walk {κ : Type} [Opener κ] (plan : Plan) (store : List Tuple)
    (opener : κ) (formed : WellFormed store) (ordered : KeyOrdered store)
    (once : ∀ tuple ∈ store, plan.splits.countP (fun range => range.contains tuple.key) = 1)
    (faithful : Faithful store opener (plan.splits.map plan.request)) :
    (plan.scanner opener).1.collect.rows = (plan.walk store).rows ∧
      (plan.scanner opener).1.collect.fault = (plan.walk store).fault ∧
      ∀ count,
        (RowSequence.next
          ((plan.scanner opener).1.collect.state.afterRequests count)).result =
          RowSequence.settledAnswer (plan.walk store).fault := by
  obtain ⟨scans, opened, segments⟩ := plan.openSegments_yields formed ordered plan.splits faithful
  have sequence : (plan.scanner opener).1 = .waiting (plan.assemble scans) := by
    simp only [scanner, opened]
  have delivers := RowSequence.delivers_of_yields (plan.assemble_yields ordered once segments)
  have settled := RowSequence.settled_collect delivers
  obtain ⟨rows, fault⟩ := delivers.collect RowSequence.next_budget
  rw [sequence]
  refine ⟨rows, fault, ?_⟩
  intro count
  rw [settled.afterRequests count]
  exact settled.next_result

/-- A tuple whose record is one cell of the column `f:q`. -/
def sampleTuple (key value : UInt8) : Tuple :=
  ⟨Record.entry (Cell.bytes ⟨[key], [102], [113], Signed.zero 64, 4, [value]⟩), 14, 1⟩

/-- Three rows; the column holds true, false and true. -/
def sampleTuples : List Tuple := [sampleTuple 97 1, sampleTuple 98 0, sampleTuple 99 1]

/-- The rows in memory. -/
def sampleStore : Store := ⟨sampleTuples.map Tuple.bytes, none, 0, none, none, false, ⟨[]⟩⟩

/-- The first two rows on which the column is true, by two splits of which the upper one comes first. -/
def samplePlan : Plan where
  table := ⟨"t", none⟩
  projection := ⟨[]⟩
  statement := ⟨none, false, false, some 2⟩
  config := ⟨1, true⟩
  splits := [KeyRange.halfOpen [98] [], KeyRange.halfOpen [] [98]]
  order := .rowKey
  grouping := []
  filters := [⟨[102], [113], .notEqual, [2], true⟩]
  residual := some (.column ⟨[102], [113], .boolean⟩)

/-- The rows in memory as the table of the plan, beside an empty store that fails as soon as it is asked
for a scan of another table. -/
def sampleDirectory : Directory Store :=
  ⟨"t", sampleStore, ⟨[], none, 0, some 1, none, false, ⟨[]⟩⟩⟩

theorem scanner_collect_eq_walk_two_splits :
    WellFormed sampleTuples ∧ KeyOrdered sampleTuples ∧
      (∀ tuple ∈ sampleTuples,
        samplePlan.splits.countP (fun range => range.contains tuple.key) = 1) ∧
      Faithful sampleTuples sampleDirectory (samplePlan.splits.map samplePlan.request) ∧
      (samplePlan.scanner sampleDirectory).1.collect.rows =
        [sampleTuple 97 1, sampleTuple 99 1] ∧
      (samplePlan.scanner sampleDirectory).1.collect.fault = none := by
  have formed : WellFormed sampleTuples := by
    unfold WellFormed
    decide +kernel
  have ordered : KeyOrdered sampleTuples := by
    unfold KeyOrdered
    decide +kernel
  have once : ∀ tuple ∈ sampleTuples,
      samplePlan.splits.countP (fun range => range.contains tuple.key) = 1 := by
    decide +kernel
  have splittable : Splittable sampleTuples := by
    intro tuple member
    have split : (tuple.row.cells).isOk = true := by
      revert tuple
      decide +kernel
    cases found : tuple.row.cells with
    | ok cells => exact ⟨cells, rfl⟩
    | error fault =>
      rw [found] at split
      cases split
  have stored : Faithful sampleTuples sampleStore (samplePlan.splits.map samplePlan.request) :=
    Store.faithful formed splittable ⟨rfl, rfl, rfl⟩ rfl _
  have faithful : Faithful sampleTuples sampleDirectory
      (samplePlan.splits.map samplePlan.request) :=
    stored.directory (List.forall_mem_map.mpr fun _ _ => rfl) _
  have kept : (samplePlan.walk sampleTuples).rows = [sampleTuple 97 1, sampleTuple 99 1] := by
    decide +kernel
  have whole : (samplePlan.walk sampleTuples).fault.isNone = true := by
    decide +kernel
  obtain ⟨rows, fault, _⟩ := scanner_collect_eq_walk samplePlan sampleTuples sampleDirectory
    formed ordered once faithful
  exact ⟨formed, ordered, once, faithful, rows.trans kept,
    fault.trans (Option.isNone_iff_eq_none.mp whole)⟩

end Plan

end WideRow
