import WideRow.Plan.Basic
import WideRow.Plan.RowSequence
import WideRow.Stream.Scan
import WideRow.Stream.Stage

/-!
# Scanners

Going through the rows of a plan.  A scan is opened for every split; several are merged in the order of
their keys.  The residual condition and the limit are laid over that.  If a scan cannot be opened, the
sequence of rows begins with that fault.
-/

namespace WideRow

/-- What a scan is opened with. -/
structure ScanRequest where
  table : TableRef
  ranges : List KeyRange
  filters : List ColumnFilter
  /-- How many records will be asked for at a time. -/
  fetchSize : Nat

/-- Something that opens scans. -/
class Opener (κ : Type) where
  /-- The source of a scan, or why there is none, and the opener afterwards. -/
  openScan : κ → ScanRequest → Except SourceFailure Source × κ

/-- The operators of a plan: segments, residual condition, limit. -/
abbrev PlanRoot := Stage (Stage (Stage Scan))

namespace Plan

/-- The request for one split. -/
def request (plan : Plan) (range : KeyRange) : ScanRequest :=
  ⟨plan.table, [range], plan.filters, plan.config.fetchSize⟩

/-- The event of a request. -/
def openEvent (request : ScanRequest) : Event :=
  .opened request.table.name (request.ranges.map KeyRange.text) request.filters.length

/-- The name of the scan of one split. -/
def label (plan : Plan) (range : KeyRange) : String :=
  plan.table.effectiveName ++ " " ++ range.text

/-- Opens the scans of some splits, in order, up to the first that cannot be opened. -/
def openSegments {κ : Type} [Opener κ] (plan : Plan) (opener : κ) :
    List KeyRange → Step κ (List Scan)
  | [] => ⟨.ok [], opener, []⟩
  | range :: rest =>
    let request := plan.request range
    match Opener.openScan opener request with
    | (.error failure, opener) =>
      ⟨.error (.advance (.source failure.text)), opener, [openEvent request]⟩
    | (.ok source, opener) =>
      let others := (openSegments plan opener rest).after [openEvent request]
      match others.result with
      | .error fault => ⟨.error fault, others.state, others.events⟩
      | .ok scans =>
        ⟨.ok (Scan.ofSource (plan.label range) source plan.config :: scans), others.state,
          others.events⟩

/-- One segment as it is, or several merged. -/
def mergeSegments : List Scan → Stage Scan
  | [scan] => .pass scan
  | scans => .merge ⟨scans.map fun scan => ⟨scan, none⟩, false⟩

/-- The residual condition over the segments. -/
def selectRows (residual : Option Expr) (segments : Stage Scan) : Stage (Stage Scan) :=
  match residual with
  | some condition => .selection ⟨segments, condition, false⟩
  | none => .pass segments

/-- The limit over the rows. -/
def limitRows (limit : Option Nat) (rows : Stage (Stage Scan)) : PlanRoot :=
  match limit with
  | some most => .limit ⟨rows, most, 0, false⟩
  | none => .pass rows

/-- The operators of a plan over its segments. -/
def assemble (plan : Plan) (scans : List Scan) : PlanRoot :=
  limitRows plan.statement.limit (selectRows plan.residual (mergeSegments scans))

/-- Begins to go through the rows of a plan. -/
def scanner {κ : Type} [Opener κ] (plan : Plan) (opener : κ) :
    RowSequence PlanRoot × κ × List Event :=
  let opened := plan.openSegments opener plan.splits
  match opened.result with
  | .ok scans => (.waiting (plan.assemble scans), opened.state, opened.events)
  | .error fault => (.refused fault, opened.state, opened.events)

end Plan

end WideRow
