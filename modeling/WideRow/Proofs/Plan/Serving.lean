import WideRow.Proofs.Row.Shapes
import WideRow.Proofs.Stream.Supply
import WideRow.Store

/-!
# Openers that serve a store

A store is seen as the tuples of its records.  `Faithful store opener requests` says that the opener, when
it is sent these requests one after the other, opens each scan with a source that supplies exactly the
records that were requested: those in one of the ranges that every filter accepts.  How a source cuts them
into batches is left open, and so is what the opener makes of any other request.

* `Store.faithful` : a store in memory that is not told to fail serves its own records, whatever is
  requested.
* `Faithful.directory` : an opener that tells tables by their names serves the requests for one table as
  the opener behind that table does.
-/

namespace WideRow

/-- Whether every filter accepts a tuple. -/
def acceptedBy (filters : List ColumnFilter) (tuple : Tuple) : Bool :=
  match ColumnFilter.allAccept tuple.row filters with
  | .ok accepted => accepted
  | .error _ => false

/-- Whether a tuple is among those that a scan asks for. -/
def ScanRequest.wants (request : ScanRequest) (tuple : Tuple) : Bool :=
  request.ranges.any (fun range => range.contains tuple.key) && acceptedBy request.filters tuple

/-- The opener, sent these requests in turn, opens every scan as requested. -/
inductive Faithful {κ : Type} [Opener κ] (store : List Tuple) : κ → List ScanRequest → Prop
  | done (opener : κ) : Faithful store opener []
  | opened {opener later : κ} {request : ScanRequest} {source : Source}
      {rest : List ScanRequest}
      (scan : Opener.openScan opener request = (.ok source, later))
      (supplies : Supplies source.replies ((store.filter request.wants).map Tuple.bytes))
      (others : Faithful store later rest) : Faithful store opener (request :: rest)

/-! ### Batches -/

theorem supplies_batches (size : Nat) (records : List Bytes) :
    Supplies ((Source.batches size records).map .ok) records := by
  fun_induction Source.batches size records with
  | case1 => exact .silent
  | case2 record rest ih =>
    have whole := Supplies.batch record (rest.take (size - 1)) ih
    rw [List.cons_append, List.take_append_drop] at whole
    exact whole

/-! ### Tuples as rows -/

theorem Row.ofRecord_eq {bytes : Bytes} {row : Row} (parsed : Row.ofRecord bytes = .ok row) :
    row.shape = .record (Span.whole bytes) none ∧ row.key.buffer = bytes := by
  obtain ⟨_, found, shape⟩ := Row.ofRegion_eq_ok.mp parsed
  exact ⟨shape, (Record.room_of_rowAt found).2⟩

/-- The row of a tuple is the row of its record. -/
theorem Tuple.ofRecord_bytes {tuple : Tuple} (formed : Tuple.ofBytes tuple.bytes = .ok tuple) :
    Row.ofRecord tuple.bytes = .ok tuple.row := by
  unfold Tuple.ofBytes at formed
  cases parsed : Row.ofRecord tuple.bytes with
  | error fault =>
    rw [parsed] at formed
    cases formed
  | ok row =>
    obtain ⟨shape, buffer⟩ := Row.ofRecord_eq parsed
    rw [parsed] at formed
    injection formed with same
    have key : row.key = tuple.keySpan := by
      rw [Tuple.keySpan, ← same, ← buffer]
    have whole : row = tuple.row := by
      obtain ⟨rowKey, rowShape⟩ := row
      rw [Tuple.row, ← key, ← shape]
    rw [whole]

/-! ### Stores in memory -/

/-- Tuples whose records can be split into cells. -/
def Splittable (tuples : List Tuple) : Prop := ∀ tuple ∈ tuples, ∃ cells, tuple.row.cells = .ok cells

theorem columnValue_of_cells {row : Row} {cells : List PlacedCell} (split : row.cells = .ok cells)
    (family qualifier : Bytes) : ∃ found, row.columnValue family qualifier = .ok found := by
  rw [Row.columnValue, Row.lookup, Row.find, split]
  exact ⟨_, rfl⟩

/-- Filters answer on a row that can be split into cells. -/
theorem allAccept_of_cells {row : Row} {cells : List PlacedCell} (split : row.cells = .ok cells)
    (filters : List ColumnFilter) : ∃ accepted, ColumnFilter.allAccept row filters = .ok accepted := by
  induction filters with
  | nil => exact ⟨true, rfl⟩
  | cons filter rest ih =>
    obtain ⟨found, value⟩ := columnValue_of_cells split filter.family filter.qualifier
    obtain ⟨accepted, others⟩ := ih
    have first : filter.accepts row = .ok (filter.acceptsValue found) := by
      rw [ColumnFilter.accepts, value]
      rfl
    rw [ColumnFilter.allAccept, first]
    cases filter.acceptsValue found with
    | true => exact ⟨accepted, others⟩
    | false => exact ⟨false, rfl⟩

namespace Store

theorem serves_tuple {tuple : Tuple} (formed : Tuple.ofBytes tuple.bytes = .ok tuple)
    {cells : List PlacedCell} (split : tuple.row.cells = .ok cells) (request : ScanRequest) :
    serves request tuple.bytes = .ok (request.wants tuple) := by
  obtain ⟨accepted, answered⟩ := allAccept_of_cells split request.filters
  rw [serves, ScanRequest.wants, acceptedBy, Tuple.ofRecord_bytes formed, answered]
  show (if request.ranges.any (fun range => range.contains tuple.key) then
    ColumnFilter.allAccept tuple.row request.filters else .ok false) = _
  cases request.ranges.any fun range => range.contains tuple.key with
  | true =>
    rw [if_pos rfl, answered]
    rfl
  | false => rfl

theorem select_tuples {tuples : List Tuple} (formed : WellFormed tuples)
    (splittable : Splittable tuples) (request : ScanRequest) :
    select request (tuples.map Tuple.bytes) =
      .ok ((tuples.filter request.wants).map Tuple.bytes) := by
  induction tuples with
  | nil => rfl
  | cons tuple rest ih =>
    obtain ⟨cells, split⟩ := splittable tuple List.mem_cons_self
    have served := serves_tuple (formed tuple List.mem_cons_self) split request
    have others := ih (fun other member => formed other (List.mem_cons_of_mem _ member))
      (fun other member => splittable other (List.mem_cons_of_mem _ member))
    rw [List.map_cons, select, served, others]
    cases wanted : request.wants tuple with
    | true =>
      rw [List.filter_cons_of_pos wanted]
      rfl
    | false =>
      rw [List.filter_cons_of_neg (Bool.eq_false_iff.mp wanted)]
      rfl

/-- A store that is not told to fail or to serve other batches. -/
structure Sound (store : Store) : Prop where
  batches : store.batches = none
  failOpening : store.failOpening = none
  failFetch : store.failFetch = none

/-- A store that is not told to fail opens every scan as requested, and is not told to fail after that. -/
theorem openScan_tuples {tuples : List Tuple} (formed : WellFormed tuples)
    (splittable : Splittable tuples) {store : Store} (sound : store.Sound)
    (records : store.records = tuples.map Tuple.bytes) (request : ScanRequest) :
    ∃ source later, Opener.openScan store request = (.ok source, later) ∧
      Supplies source.replies ((tuples.filter request.wants).map Tuple.bytes) ∧
      later.Sound ∧ later.records = tuples.map Tuple.bytes := by
  have opened : Opener.openScan store request =
      (.ok (source { store with openings := store.openings + 1 } (store.openings + 1)
          request.fetchSize ((tuples.filter request.wants).map Tuple.bytes)),
        { store with openings := store.openings + 1 }) := by
    show openScan store request = _
    unfold openScan
    simp only [sound.failOpening, reduceCtorEq, if_false, records,
      select_tuples formed splittable request]
  have replies : (source { store with openings := store.openings + 1 } (store.openings + 1)
      request.fetchSize ((tuples.filter request.wants).map Tuple.bytes)).replies =
      (Source.batches request.fetchSize ((tuples.filter request.wants).map Tuple.bytes)).map
        .ok := by
    simp only [source, sound.batches, sound.failFetch, Option.getD_none, Source.repliesFailingAt]
  refine ⟨_, _, opened, ?_, ⟨sound.batches, sound.failOpening, sound.failFetch⟩, records⟩
  rw [replies]
  exact supplies_batches _ _

/-- A store in memory serves its own records, whatever is requested. -/
theorem faithful {tuples : List Tuple} (formed : WellFormed tuples)
    (splittable : Splittable tuples) {store : Store} (sound : store.Sound)
    (records : store.records = tuples.map Tuple.bytes) (requests : List ScanRequest) :
    Faithful tuples store requests := by
  induction requests generalizing store with
  | nil => exact .done store
  | cons request rest ih =>
    obtain ⟨_, _, opened, supplies, soundLater, recordsLater⟩ :=
      openScan_tuples formed splittable sound records request
    exact .opened opened supplies (ih soundLater recordsLater)

end Store

/-! ### Openers of several tables -/

/-- An opener for the scans of one table, beside another for the scans of all other tables. -/
structure Directory (κ : Type) where
  table : String
  named : κ
  others : κ

instance {κ : Type} [Opener κ] : Opener (Directory κ) where
  openScan directory request :=
    if request.table.name = directory.table then
      let (opened, named) := Opener.openScan directory.named request
      (opened, { directory with named })
    else
      let (opened, others) := Opener.openScan directory.others request
      (opened, { directory with others })

/-- Requests for the table of a directory are served as its own opener serves them, whatever the opener
for the other tables does. -/
theorem Faithful.directory {κ : Type} [Opener κ] {store : List Tuple} {opener : κ}
    {requests : List ScanRequest} (faithful : Faithful store opener requests) {table : String}
    (own : ∀ request ∈ requests, request.table.name = table) (others : κ) :
    Faithful store (⟨table, opener, others⟩ : Directory κ) requests := by
  induction faithful with
  | done opener => exact .done _
  | opened scan supplies _ ih =>
    obtain ⟨first, later⟩ := List.forall_mem_cons.mp own
    refine .opened ?_ supplies (ih later)
    refine (if_pos first).trans ?_
    rw [scan]

end WideRow
