import WideRow.Stream.Operator

/-!
# Scans

A scan takes batches of records from a source and returns them as tuples.  If it verifies order, a
record whose key is below its predecessor's is a fault.  After a fault of any kind every further row is
refused, and after an empty batch there are no more rows; neither ends by initializing again.
-/

namespace WideRow

/-- How a scan runs. -/
structure ScanConfig where
  /-- The largest number of records to ask for at a time. -/
  fetchSize : Nat
  /-- Whether records must come in the order of their keys. -/
  verifyOrder : Bool
  deriving DecidableEq

namespace ScanConfig

/-- A hundred records at a time, in verified order. -/
def standard : ScanConfig := ⟨100, true⟩

/-- The configuration with another fetch size, which is at least one. -/
def withFetchSize (config : ScanConfig) (size : Nat) : ScanConfig :=
  { config with fetchSize := max size 1 }

/-- The configuration that verifies order or not. -/
def withVerifyOrder (config : ScanConfig) (verify : Bool) : ScanConfig :=
  { config with verifyOrder := verify }

end ScanConfig

/-- Where a scan stands. -/
inductive ScanPhase where
  | active
  | exhausted
  | failed
  deriving DecidableEq

/-- A scan of one source. -/
structure Scan where
  label : String
  source : Source
  config : ScanConfig
  /-- Records fetched and not yet returned. -/
  buffered : List Bytes
  /-- The key of the last row returned, while order is verified. -/
  lastKey : Option Bytes
  phase : ScanPhase
  rowsReturned : Nat
  ready : Bool

namespace Scan

/-- A scan that has not begun. -/
def ofSource (label : String) (source : Source) (config : ScanConfig) : Scan :=
  ⟨label, source, config, [], none, .active, 0, false⟩

/-- The scan after a fault. -/
def fail (scan : Scan) : Scan := { scan with phase := .failed, buffered := [] }

/-- Whether a key may follow the last one. -/
def inOrder (scan : Scan) (key : Bytes) : Bool :=
  match scan.config.verifyOrder, scan.lastKey with
  | true, some last => compare last key != .gt
  | _, _ => true

/-- The fault of a key that may not follow the last one. -/
def orderFault (scan : Scan) (key : Bytes) : QueryFault :=
  .advance (.keyOrder key (scan.lastKey.getD []))

/-- The scan after a row with the given key. -/
def returned (scan : Scan) (key : Bytes) : Scan :=
  { scan with
    lastKey := if scan.config.verifyOrder then some key else scan.lastKey
    rowsReturned := scan.rowsReturned + 1 }

/-- Returns a record as a tuple; the rest stays buffered. -/
def deliver (scan : Scan) (record : Bytes) (rest : List Bytes) :
    Fallible (Option Tuple) × Scan :=
  let scan := { scan with buffered := rest }
  match Tuple.ofBytes record with
  | .error fault => (.error (.malformedRecord fault), scan.fail)
  | .ok tuple =>
    if scan.inOrder tuple.key then (.ok (some tuple), scan.returned tuple.key)
    else (.error (scan.orderFault tuple.key), scan.fail)

/-- Takes the next batch and returns its first record. -/
def refill (scan : Scan) : Fallible (Option Tuple) × Scan :=
  match scan.source.fetch with
  | (.error failure, source) =>
    (.error (.advance (.source failure.text)), { scan with source }.fail)
  | (.ok [], source) => (.ok none, { scan with source, phase := .exhausted })
  | (.ok (record :: rest), source) => deliver { scan with source } record rest

/-- Makes the scan ready; nothing else changes. -/
def init (scan : Scan) : Step Scan Unit := ⟨.ok (), { scan with ready := true }, []⟩

/-- The next row. -/
def next (scan : Scan) : Step Scan (Option Tuple) :=
  if !scan.ready then notReady scan
  else if scan.phase = .failed then ⟨.error .aborted, scan, []⟩
  else
    match scan.buffered with
    | record :: rest =>
      let (result, after) := deliver scan record rest
      ⟨result, after, []⟩
    | [] =>
      if scan.phase = .exhausted then ⟨.ok none, scan, []⟩
      else
        let event := Source.fetchEvent scan.source.name scan.config.fetchSize scan.source.fetch.1
        let (result, after) := refill scan
        ⟨result, after, [event]⟩

/-- Closes the source of a scan that is ready. -/
def close (scan : Scan) : Step Scan Unit :=
  if !scan.ready then ⟨.ok (), scan, []⟩
  else
    let closed := { scan with ready := false, buffered := [] }
    match scan.source.close with
    | .ok () => ⟨.ok (), closed, scan.source.closeEvents⟩
    | .error failure =>
      ⟨.error (.execution (.closeFailed scan.label failure.text)), closed,
        scan.source.closeEvents⟩

/-- The number of records buffered or still to come. -/
def budget (scan : Scan) : Nat := scan.buffered.length + Source.remaining scan.source.replies

theorem deliver_budget (scan : Scan) (record : Bytes) (rest : List Bytes) :
    (deliver scan record rest).2.budget + Step.rowsIn (deliver scan record rest).1 ≤
      rest.length + 1 + Source.remaining scan.source.replies := by
  unfold deliver
  cases Tuple.ofBytes record with
  | error fault => simp only [budget, fail, Step.rowsIn, List.length_nil]; omega
  | ok tuple =>
    simp only
    split
    · simp only [budget, returned, Step.rowsIn]; omega
    · simp only [budget, fail, Step.rowsIn, List.length_nil]; omega

theorem refill_budget (scan : Scan) :
    (refill scan).2.budget + Step.rowsIn (refill scan).1 ≤
      scan.buffered.length + Source.remaining scan.source.replies := by
  unfold refill Source.fetch
  cases held : scan.source.replies with
  | nil => simp only [budget, Step.rowsIn, held, Source.remaining]; omega
  | cons reply rest =>
    cases reply with
    | error failure => simp only [budget, fail, Step.rowsIn, List.length_nil, Source.remaining]; omega
    | ok batch =>
      cases batch with
      | nil => simp only [budget, Step.rowsIn, Source.remaining]; omega
      | cons record more =>
        have step := deliver_budget
          { scan with source := { scan.source with replies := rest } } record more
        simp only at step
        simp only [Source.remaining, Source.replySize, List.length_cons]
        omega

theorem next_budget (scan : Scan) :
    (next scan).state.budget + (next scan).rowCount ≤ scan.budget := by
  unfold next
  split
  · simp only [notReady, Step.rowCount, Step.rowsIn]; omega
  split
  · simp only [Step.rowCount, Step.rowsIn]; omega
  cases held : scan.buffered with
  | cons record rest =>
    have whole : scan.budget = rest.length + 1 + Source.remaining scan.source.replies := by
      rw [budget, held, List.length_cons]
    rw [whole]
    exact deliver_budget scan record rest
  | nil =>
    simp only
    split
    · simp only [Step.rowCount, Step.rowsIn]; omega
    · exact refill_budget scan

instance : Bounded Scan where
  init := init
  next := next
  close := close
  budget := budget
  init_budget _ := Nat.le_refl _
  next_budget := next_budget

end Scan

end WideRow
