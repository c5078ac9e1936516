import WideRow.Proofs.Stream.Delivery
import WideRow.Stream.Scan

/-!
# Scans of faithful sources

A source supplies records if it gives them in non-empty batches of any sizes, without a failure, and
then an empty batch.  A scan of such a source yields the tuples of the records, in their order, whether
or not it verifies the order of keys (`Scan.yields`).
-/

namespace WideRow

/-- The replies give these records in non-empty batches and then an empty one. -/
inductive Supplies : List (Except SourceFailure (List Bytes)) → List Bytes → Prop
  | silent : Supplies [] []
  | empty (rest : List (Except SourceFailure (List Bytes))) : Supplies (.ok [] :: rest) []
  | batch (first : Bytes) (more : List Bytes) {replies : List (Except SourceFailure (List Bytes))}
      {later : List Bytes} (others : Supplies replies later) :
      Supplies (.ok (first :: more) :: replies) (first :: more ++ later)

theorem supplies_singly (records : List Bytes) :
    Supplies (records.map fun record => .ok [record]) records := by
  induction records with
  | nil => exact .silent
  | cons record rest ih => exact .batch record [] ih

/-- Tuples as they are made of their own records. -/
def WellFormed (tuples : List Tuple) : Prop := ∀ tuple ∈ tuples, Tuple.ofBytes tuple.bytes = .ok tuple

namespace Scan

/-- A scan that is ready and under way holds exactly these tuples: in its buffer, the rest still to be
supplied, none of them below the last key. -/
structure Holds (scan : Scan) (tuples : List Tuple) : Prop where
  ready : scan.ready = true
  active : scan.phase = .active
  records : ∃ later, scan.buffered ++ later = tuples.map Tuple.bytes ∧
    Supplies scan.source.replies later
  above : ∀ last, scan.lastKey = some last → ∀ tuple ∈ tuples, compare last tuple.key ≠ .gt

theorem inOrder_of_above {scan : Scan} {key : Bytes}
    (above : ∀ last, scan.lastKey = some last → compare last key ≠ .gt) :
    scan.inOrder key = true := by
  simp only [inOrder]
  split
  · rename_i last _ held
    have follows := above last held
    simp only [bne_iff_ne, ne_eq, follows, not_false_eq_true]
  · rfl

theorem deliver_tuple (scan : Scan) {tuple : Tuple} (rest : List Bytes)
    (formed : Tuple.ofBytes tuple.bytes = .ok tuple)
    (above : ∀ last, scan.lastKey = some last → compare last tuple.key ≠ .gt) :
    deliver scan tuple.bytes rest =
      (.ok (some tuple), { scan with buffered := rest }.returned tuple.key) := by
  have ordered : { scan with buffered := rest }.inOrder tuple.key = true := inOrder_of_above above
  rw [deliver, formed]
  simp only [ordered, if_true]

/-- After a tuple has been returned the scan holds the others. -/
theorem holds_returned (scan : Scan) {tuple : Tuple} {rest : List Bytes} {others : List Tuple}
    (ready : scan.ready = true) (active : scan.phase = .active)
    (records : ∃ later, rest ++ later = others.map Tuple.bytes ∧
      Supplies scan.source.replies later)
    (above : ∀ last, scan.lastKey = some last → ∀ other ∈ others, compare last other.key ≠ .gt)
    (follow : ∀ other ∈ others, compare tuple.key other.key ≠ .gt) :
    Holds ({ scan with buffered := rest }.returned tuple.key) others := by
  refine ⟨ready, active, records, ?_⟩
  intro last held
  simp only [returned] at held
  split at held
  · injection held with same
    rw [← same]
    exact follow
  · exact above last held

theorem next_of_buffered {scan : Scan} {record : Bytes} {rest : List Bytes}
    (ready : scan.ready = true) (active : scan.phase = .active)
    (buffered : scan.buffered = record :: rest) :
    Scan.next scan = ⟨(deliver scan record rest).1, (deliver scan record rest).2, []⟩ := by
  unfold Scan.next
  simp only [ready, active, buffered, Bool.not_true, Bool.false_eq_true, reduceCtorEq, if_false]

theorem next_of_unbuffered {scan : Scan} (ready : scan.ready = true)
    (active : scan.phase = .active) (buffered : scan.buffered = []) :
    Scan.next scan = ⟨(refill scan).1, (refill scan).2,
      [Source.fetchEvent scan.source.name scan.config.fetchSize scan.source.fetch.1]⟩ := by
  unfold Scan.next
  simp only [ready, active, buffered, Bool.not_true, Bool.false_eq_true, reduceCtorEq, if_false]

/-- A scan that holds nothing has come to the end. -/
theorem next_of_holds_nil {scan : Scan} (holds : Holds scan []) :
    (Scan.next scan).result = .ok none := by
  obtain ⟨later, records, supplies⟩ := holds.records
  obtain ⟨nothingBuffered, nothingLater⟩ := List.append_eq_nil_iff.mp records
  rw [next_of_unbuffered holds.ready holds.active nothingBuffered]
  rw [nothingLater] at supplies
  unfold refill Source.fetch
  cases held : scan.source.replies with
  | nil => rfl
  | cons reply replies =>
    rw [held] at supplies
    cases supplies
    rfl

/-- A scan that holds tuples returns the first and holds the others. -/
theorem next_of_holds_cons {scan : Scan} {tuple : Tuple} {others : List Tuple}
    (formed : Tuple.ofBytes tuple.bytes = .ok tuple)
    (follow : ∀ other ∈ others, compare tuple.key other.key ≠ .gt)
    (holds : Holds scan (tuple :: others)) :
    (Scan.next scan).result = .ok (some tuple) ∧ Holds (Scan.next scan).state others := by
  have aboveFirst : ∀ last, scan.lastKey = some last → compare last tuple.key ≠ .gt :=
    fun last held => holds.above last held tuple List.mem_cons_self
  have aboveOthers : ∀ last, scan.lastKey = some last → ∀ other ∈ others,
      compare last other.key ≠ .gt :=
    fun last held other member => holds.above last held other (List.mem_cons_of_mem _ member)
  obtain ⟨later, records, supplies⟩ := holds.records
  rw [List.map_cons] at records
  cases buffered : scan.buffered with
  | cons record rest =>
    rw [buffered, List.cons_append] at records
    injection records with first records
    rw [next_of_buffered holds.ready holds.active buffered, first,
      deliver_tuple scan rest formed aboveFirst]
    exact ⟨rfl, holds_returned scan holds.ready holds.active ⟨later, records, supplies⟩ aboveOthers
      follow⟩
  | nil =>
    rw [buffered, List.nil_append] at records
    rw [next_of_unbuffered holds.ready holds.active buffered]
    generalize supplied : scan.source.replies = replies at supplies
    cases supplies with
    | silent => cases records
    | empty rest => cases records
    | @batch record rest replies later supplies =>
      rw [List.cons_append] at records
      injection records with first records
      have step : refill scan =
          deliver { scan with source := { scan.source with replies } } record rest := by
        rw [refill, Source.fetch, supplied]
      have delivered := deliver_tuple { scan with source := { scan.source with replies } } rest
        formed aboveFirst
      rw [step, first, delivered]
      exact ⟨rfl, holds_returned { scan with source := { scan.source with replies } }
        holds.ready holds.active ⟨later, records, supplies⟩ aboveOthers follow⟩

/-- A scan delivers the tuples that it holds. -/
theorem delivers {tuples : List Tuple} (formed : WellFormed tuples) (ordered : KeyOrdered tuples)
    {scan : Scan} (holds : Holds scan tuples) :
    Delivers Operator.next scan (Outcome.complete tuples) := by
  induction tuples generalizing scan with
  | nil => exact .finish (next_of_holds_nil holds)
  | cons tuple others ih =>
    obtain ⟨follow, orderedOthers⟩ := List.pairwise_cons.mp ordered
    obtain ⟨given, held⟩ := next_of_holds_cons (formed tuple List.mem_cons_self) follow holds
    have formedOthers : WellFormed others :=
      fun other member => formed other (List.mem_cons_of_mem _ member)
    exact .row given (ih formedOthers orderedOthers held)

/-- A new scan of a source that supplies the records of some tuples yields these tuples. -/
theorem yields {tuples : List Tuple} (formed : WellFormed tuples) (ordered : KeyOrdered tuples)
    (label : String) {source : Source} (config : ScanConfig)
    (supplies : Supplies source.replies (tuples.map Tuple.bytes)) :
    Yields (ofSource label source config) (Outcome.complete tuples) := by
  refine ⟨rfl, delivers formed ordered ⟨rfl, rfl, ⟨_, List.nil_append _, supplies⟩, ?_⟩⟩
  intro last held
  cases held

/-- A new scan of a source that gives the records of some rows one by one. -/
def ofRows (name : String) (rows : List Tuple) : Scan :=
  ofSource "t" ⟨name, (rows.map Tuple.bytes).map fun record => .ok [record], none, false⟩ .standard

theorem ofRows_yields {rows : List Tuple} (formed : WellFormed rows) (ordered : KeyOrdered rows)
    (name : String) : Yields (ofRows name rows) (Outcome.complete rows) :=
  yields formed ordered "t" .standard (supplies_singly _)

end Scan

end WideRow
