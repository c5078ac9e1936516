import WideRow.Proofs.Stream.Requests
import WideRow.Proofs.Stream.Supply

/-!
# Runs of a scan

A source may reply anything: batches of any bytes, an empty batch, a failure, in any order.  Whatever
it does, and however often the scan is made ready again in between, what the scan answers is a beginning
of the records supplied and then one ending: the end, or one fault and refusals.

* `UnderWay`, `Over` : the two ways a scan can stand; `next_underWay`, `next_over` are the steps.
* `Ends` : which ending a scan may come to after which rows.
* `run_faithful` : the whole run.
-/

namespace WideRow

/-! ### Keys in order -/

/-- A tuple whose key is not below the last one may follow. -/
theorem KeyOrdered.snoc {tuples : List Tuple} (ordered : KeyOrdered tuples) {tuple : Tuple}
    (follows : ∀ last, tuples.getLast? = some last → compare last.key tuple.key ≠ .gt) :
    KeyOrdered (tuples ++ [tuple]) := by
  refine List.pairwise_append.mpr ⟨ordered, List.pairwise_singleton _ tuple, ?_⟩
  intro earlier member other single
  rw [List.mem_singleton.mp single]
  rcases List.eq_nil_or_concat tuples with empty | ⟨front, last, split⟩
  · rw [empty] at member
    exact absurd member List.not_mem_nil
  · rw [List.concat_eq_append] at split
    have step := follows last (by rw [split, List.getLast?_concat])
    rw [split] at ordered member
    obtain ⟨_, _, below⟩ := List.pairwise_append.mp ordered
    rcases List.mem_append.mp member with inFront | isLast
    · exact compare_bytes_trans (below earlier inFront last List.mem_cons_self) step
    · rw [List.mem_singleton.mp isLast]
      exact step

namespace Source

/-- The records in the batches up to the first empty one or the first failure, and that failure. -/
def supply : List (Except SourceFailure (List Bytes)) → List Bytes × Option SourceFailure
  | [] => ([], none)
  | .error failure :: _ => ([], some failure)
  | .ok [] :: _ => ([], none)
  | .ok (first :: more) :: rest => (first :: more ++ (supply rest).1, (supply rest).2)

end Source

namespace Scan

/-! ### Demands -/

/-- What is asked of a scan that is not closed. -/
inductive Demand where
  /-- To make itself ready, perhaps again. -/
  | ready
  | row

/-- Meets some demands, one after the other. -/
def run : List Demand → Scan → Run Scan
  | [], scan => ⟨[], scan, []⟩
  | .ready :: rest, scan =>
    let others := run rest (init scan).state
    ⟨others.answers, others.state, (init scan).events ++ others.events⟩
  | .row :: rest, scan =>
    let others := run rest (next scan).state
    ⟨(next scan).result :: others.answers, others.state, (next scan).events ++ others.events⟩

/-! ### What may be seen of a source -/

/-- Tuples that a scan may have returned: the first records supplied, each as it is read, and in the
order of their keys if that is verified. -/
structure Delivered (config : ScanConfig) (replies : List (Except SourceFailure (List Bytes)))
    (tuples : List Tuple) : Prop where
  records : tuples.map Tuple.bytes <+: (Source.supply replies).1
  formed : WellFormed tuples
  ordered : config.verifyOrder = true → KeyOrdered tuples

/-- The ending that a scan may come to after it has returned some tuples: the end of the rows, or a
fault. -/
inductive Ends (config : ScanConfig) (replies : List (Except SourceFailure (List Bytes)))
    (tuples : List Tuple) : Option QueryFault → Prop
  /-- Every record has been returned, and an empty batch follows. -/
  | exhausted (all : Source.supply replies = (tuples.map Tuple.bytes, none)) :
      Ends config replies tuples none
  /-- Every record has been returned, and a failure follows. -/
  | failed {failure : SourceFailure}
      (all : Source.supply replies = (tuples.map Tuple.bytes, some failure)) :
      Ends config replies tuples (some (.advance (.source failure.text)))
  /-- The next record cannot be read. -/
  | malformed {record : Bytes} {cause : RecordFault}
      (next : tuples.map Tuple.bytes ++ [record] <+: (Source.supply replies).1)
      (unreadable : Tuple.ofBytes record = .error cause) :
      Ends config replies tuples (some (.malformedRecord cause))
  /-- The next record has a key below the last one. -/
  | disordered {record : Bytes} {tuple last : Tuple}
      (verified : config.verifyOrder = true)
      (next : tuples.map Tuple.bytes ++ [record] <+: (Source.supply replies).1)
      (readable : Tuple.ofBytes record = .ok tuple)
      (previous : tuples.getLast? = some last)
      (below : compare last.key tuple.key = .gt) :
      Ends config replies tuples (some (.advance (.keyOrder tuple.key last.key)))

/-! ### How a scan stands -/

/-- A scan that has returned some tuples and goes on. -/
structure UnderWay (config : ScanConfig) (replies : List (Except SourceFailure (List Bytes)))
    (tuples : List Tuple) (scan : Scan) : Prop where
  ready : scan.ready = true
  active : scan.phase = .active
  config_eq : scan.config = config
  supplied : Source.supply replies =
    (tuples.map Tuple.bytes ++ (scan.buffered ++ (Source.supply scan.source.replies).1),
      (Source.supply scan.source.replies).2)
  formed : WellFormed tuples
  ordered : config.verifyOrder = true → KeyOrdered tuples
  lastKey : config.verifyOrder = true → scan.lastKey = tuples.getLast?.map Tuple.key
  counted : scan.rowsReturned = tuples.length

/-- A scan that has returned a number of rows and has come to an ending. -/
structure Over (ending : Option QueryFault) (count : Nat) (scan : Scan) : Prop where
  ready : scan.ready = true
  phase : scan.phase = if ending.isSome then .failed else .exhausted
  buffered : scan.buffered = []
  counted : scan.rowsReturned = count

variable {config : ScanConfig} {replies : List (Except SourceFailure (List Bytes))}
  {tuples : List Tuple} {scan : Scan}

theorem UnderWay.delivered (underWay : UnderWay config replies tuples scan) :
    Delivered config replies tuples where
  records := ⟨_, (congrArg Prod.fst underWay.supplied).symm⟩
  formed := underWay.formed
  ordered := underWay.ordered

theorem underWay_start (label : String) (source : Source) (config : ScanConfig) :
    UnderWay config source.replies [] (init (ofSource label source config)).state where
  ready := rfl
  active := rfl
  config_eq := rfl
  supplied := rfl
  formed := List.forall_mem_nil _
  ordered _ := List.Pairwise.nil
  lastKey _ := rfl
  counted := rfl

theorem over_fail (ready : scan.ready = true) (counted : scan.rowsReturned = tuples.length)
    (fault : QueryFault) : Over (some fault) tuples.length scan.fail :=
  ⟨ready, rfl, rfl, counted⟩

/-- What asking a scan for a row may come to: one more row, or an ending. -/
inductive Advance (config : ScanConfig) (replies : List (Except SourceFailure (List Bytes)))
    (tuples : List Tuple) : Fallible (Option Tuple) → Scan → Prop
  | row {tuple : Tuple} {after : Scan} (on : UnderWay config replies (tuples ++ [tuple]) after) :
      Advance config replies tuples (.ok (some tuple)) after
  | ending {ending : Option QueryFault} {after : Scan} (why : Ends config replies tuples ending)
      (stopped : Over ending tuples.length after) :
      Advance config replies tuples (endAnswer ending) after

theorem ofBytes_bytes {bytes : Bytes} {tuple : Tuple} (read : Tuple.ofBytes bytes = .ok tuple) :
    tuple.bytes = bytes := by
  unfold Tuple.ofBytes at read
  cases located : Row.ofRecord bytes with
  | error fault =>
    rw [located] at read
    cases read
  | ok row =>
    rw [located] at read
    injection read with same
    rw [← same]

theorem inOrder_of_verified {last key : Bytes} (verified : scan.config.verifyOrder = true)
    (held : scan.lastKey = some last) : scan.inOrder key = (compare last key != .gt) := by
  rw [inOrder, verified, held]

theorem inOrder_eq_false {key : Bytes} (refused : scan.inOrder key = false) :
    scan.config.verifyOrder = true ∧
      ∃ last, scan.lastKey = some last ∧ compare last key = .gt := by
  cases verified : scan.config.verifyOrder with
  | false =>
    rw [inOrder, verified] at refused
    cases refused
  | true =>
    cases held : scan.lastKey with
    | none =>
      rw [inOrder, verified, held] at refused
      cases refused
    | some last =>
      rw [inOrder_of_verified verified held, bne_eq_false_iff_eq] at refused
      exact ⟨rfl, last, rfl, refused⟩

/-- One more row has been returned. -/
theorem UnderWay.returned {record : Bytes} {rest : List Bytes} {tuple : Tuple}
    (underWay : UnderWay config replies tuples { scan with buffered := record :: rest })
    (read : Tuple.ofBytes record = .ok tuple)
    (inOrder : scan.inOrder tuple.key = true) :
    UnderWay config replies (tuples ++ [tuple])
      ({ scan with buffered := rest }.returned tuple.key) where
  ready := underWay.ready
  active := underWay.active
  config_eq := underWay.config_eq
  supplied := by
    rw [underWay.supplied, List.map_append, List.append_assoc, List.map_singleton,
      ofBytes_bytes read]
    rfl
  formed := by
    refine List.forall_mem_append.mpr ⟨underWay.formed, List.forall_mem_singleton.mpr ?_⟩
    rw [ofBytes_bytes read]
    exact read
  ordered verified := by
    refine (underWay.ordered verified).snoc ?_
    intro last previous
    have held : scan.lastKey = some last.key := by
      have kept := underWay.lastKey verified
      rw [previous] at kept
      exact kept
    have verifies : scan.config.verifyOrder = true := underWay.config_eq ▸ verified
    rw [inOrder_of_verified verifies held] at inOrder
    exact bne_iff_ne.mp inOrder
  lastKey verified := by
    have verifies : scan.config.verifyOrder = true := underWay.config_eq ▸ verified
    rw [List.getLast?_concat]
    exact if_pos verifies
  counted := by
    rw [List.length_append, List.length_singleton, ← underWay.counted]
    rfl

/-- A record at hand is returned or ends the scan. -/
theorem deliver_underWay {record : Bytes} {rest : List Bytes}
    (underWay : UnderWay config replies tuples { scan with buffered := record :: rest }) :
    Advance config replies tuples (deliver scan record rest).1 (deliver scan record rest).2 := by
  have next : tuples.map Tuple.bytes ++ [record] <+: (Source.supply replies).1 := by
    rw [underWay.supplied]
    exact ⟨rest ++ (Source.supply scan.source.replies).1, List.append_assoc _ _ _⟩
  unfold deliver
  cases read : Tuple.ofBytes record with
  | error cause =>
    exact .ending (.malformed next read) (over_fail underWay.ready underWay.counted _)
  | ok tuple =>
    have sameOrder : { scan with buffered := rest }.inOrder tuple.key = scan.inOrder tuple.key := rfl
    cases ordered : scan.inOrder tuple.key with
    | true =>
      simp only [sameOrder, ordered, if_true]
      exact .row (underWay.returned read ordered)
    | false =>
      obtain ⟨verifies, key, held, below⟩ := inOrder_eq_false ordered
      have verified : config.verifyOrder = true := underWay.config_eq ▸ verifies
      obtain ⟨last, previous, sameKey⟩ :=
        Option.map_eq_some_iff.mp ((underWay.lastKey verified).symm.trans held)
      rw [← sameKey] at held below
      have fault : { scan with buffered := rest }.orderFault tuple.key =
          .advance (.keyOrder tuple.key last.key) := by
        rw [orderFault, held]
        rfl
      simp only [sameOrder, ordered, Bool.false_eq_true, if_false, fault]
      exact .ending (.disordered verified next read previous below)
        (over_fail underWay.ready underWay.counted _)

/-- An empty buffer is filled by the next reply, or the scan ends with that reply. -/
theorem refill_underWay (underWay : UnderWay config replies tuples scan)
    (empty : scan.buffered = []) :
    Advance config replies tuples (refill scan).1 (refill scan).2 := by
  have supplied := underWay.supplied
  rw [empty, List.nil_append] at supplied
  unfold refill Source.fetch
  cases left : scan.source.replies with
  | nil =>
    rw [left, Source.supply, List.append_nil] at supplied
    exact .ending (.exhausted supplied) ⟨underWay.ready, rfl, empty, underWay.counted⟩
  | cons reply later =>
    cases reply with
    | error failure =>
      rw [left, Source.supply, List.append_nil] at supplied
      exact .ending (.failed supplied) ⟨underWay.ready, rfl, rfl, underWay.counted⟩
    | ok batch =>
      cases batch with
      | nil =>
        rw [left, Source.supply, List.append_nil] at supplied
        exact .ending (.exhausted supplied) ⟨underWay.ready, rfl, empty, underWay.counted⟩
      | cons record rest =>
        rw [left, Source.supply] at supplied
        refine deliver_underWay { underWay with supplied := ?_ }
        exact supplied

/-- Asking a scan that is under way for a row. -/
theorem next_underWay (underWay : UnderWay config replies tuples scan) :
    Advance config replies tuples (next scan).result (next scan).state := by
  cases buffered : scan.buffered with
  | nil =>
    rw [next_of_unbuffered underWay.ready underWay.active buffered]
    exact refill_underWay underWay buffered
  | cons record rest =>
    rw [next_of_buffered underWay.ready underWay.active buffered]
    refine deliver_underWay { underWay with supplied := ?_ }
    rw [underWay.supplied, buffered]

/-- A scan that is over answers without its source and stays as it is. -/
theorem next_over {ending : Option QueryFault} {count : Nat} (stopped : Over ending count scan) :
    next scan = ⟨RowSequence.settledAnswer ending, scan, []⟩ := by
  have phase := stopped.phase
  unfold next
  cases ending with
  | none =>
    simp only [Option.isSome_none, Bool.false_eq_true, if_false] at phase
    simp only [stopped.ready, phase, stopped.buffered, Bool.not_true, Bool.false_eq_true, reduceCtorEq,
      if_false, if_true, RowSequence.settledAnswer]
  | some fault =>
    simp only [Option.isSome_some, if_true] at phase
    simp only [stopped.ready, phase, Bool.not_true, Bool.false_eq_true, if_false, if_true,
      RowSequence.settledAnswer]

/-- Making a scan ready again changes nothing. -/
theorem init_of_ready (ready : scan.ready = true) : (init scan).state = scan := by
  rw [init, ← ready]

/-! ### Whole runs -/

theorem run_ready (rest : List Demand) (ready : scan.ready = true) :
    run (.ready :: rest) scan = run rest scan := by
  rw [run, init_of_ready ready]
  rfl

/-- A scan that is over gives one answer only, and its source is left alone. -/
theorem run_over {ending : Option QueryFault} {count : Nat} (stopped : Over ending count scan)
    (demands : List Demand) :
    (∃ times, (run demands scan).answers =
        List.replicate times (RowSequence.settledAnswer ending)) ∧
      (run demands scan).state = scan ∧ (run demands scan).events = [] := by
  induction demands with
  | nil => exact ⟨⟨0, rfl⟩, rfl, rfl⟩
  | cons demand rest ih =>
    cases demand with
    | ready =>
      rw [run_ready rest stopped.ready]
      exact ih
    | row =>
      obtain ⟨⟨times, answers⟩, state, events⟩ := ih
      rw [run, next_over stopped]
      exact ⟨⟨times + 1, congrArg (List.cons _) answers⟩, state, events⟩

/-- How a scan that has returned all but the last `more` of some tuples meets demands. -/
inductive Course (config : ScanConfig) (replies : List (Except SourceFailure (List Bytes)))
    (all : List Tuple) (demands : List Demand) (scan : Scan) (more : List Tuple) : Prop
  /-- It returns them, and no more is demanded. -/
  | goesOn (answers : (run demands scan).answers = rowAnswers more)
  /-- It returns them and comes to an ending at the next demand for a row.  From then on it gives one
  answer only and asks its source for nothing. -/
  | ends (before later : List Demand) {ending : Option QueryFault} (times : Nat)
      (split : demands = before ++ .row :: later)
      (why : Ends config replies all ending)
      (rows : (run before scan).answers = rowAnswers more)
      (answers : (run demands scan).answers = endedAnswers more ending times)
      (untouched : (run later (run (before ++ [.row]) scan).state).events = [])

theorem Course.ready {all more : List Tuple} {rest : List Demand} (ready : scan.ready = true)
    (course : Course config replies all rest scan more) :
    Course config replies all (.ready :: rest) scan more := by
  have skip : ∀ demands, run (.ready :: demands) scan = run demands scan :=
    fun demands => run_ready demands ready
  cases course with
  | goesOn answers =>
    rw [← skip] at answers
    exact .goesOn answers
  | ends before later times split why rows answers untouched =>
    rw [← skip] at rows answers untouched
    exact .ends (.ready :: before) later times (congrArg (List.cons _) split) why rows answers
      untouched

theorem Course.row {all more : List Tuple} {rest : List Demand} {tuple : Tuple}
    (given : (next scan).result = .ok (some tuple))
    (course : Course config replies all rest (next scan).state more) :
    Course config replies all (.row :: rest) scan (tuple :: more) := by
  have asked : ∀ demands, (run (.row :: demands) scan).answers =
      .ok (some tuple) :: (run demands (next scan).state).answers := by
    intro demands
    rw [run, given]
  cases course with
  | goesOn answers =>
    refine .goesOn ?_
    rw [asked, answers]
    rfl
  | ends before later times split why rows answers untouched =>
    refine .ends (.row :: before) later times (congrArg (List.cons _) split) why ?_ ?_ untouched
    · rw [asked, rows]
      rfl
    · rw [asked, answers]
      rfl

theorem Course.ending {rest : List Demand} {ending : Option QueryFault}
    (given : (next scan).result = endAnswer ending) (why : Ends config replies tuples ending)
    (stopped : Over ending tuples.length (next scan).state) :
    Course config replies tuples (.row :: rest) scan [] := by
  obtain ⟨⟨times, answers⟩, _, events⟩ := run_over stopped rest
  refine .ends [] rest times rfl why rfl ?_ events
  rw [run, given, answers]
  rfl

/-- A scan that is under way meets any demands, step by step. -/
theorem course_of_underWay (underWay : UnderWay config replies tuples scan)
    (demands : List Demand) :
    ∃ more, Delivered config replies (tuples ++ more) ∧
      (run demands scan).state.rowsReturned = (tuples ++ more).length ∧
      Course config replies (tuples ++ more) demands scan more := by
  induction demands generalizing tuples scan with
  | nil =>
    refine ⟨[], ?_, ?_, .goesOn rfl⟩
    · rw [List.append_nil]
      exact underWay.delivered
    · rw [List.append_nil]
      exact underWay.counted
  | cons demand rest ih =>
    cases demand with
    | ready =>
      obtain ⟨more, delivered, counted, course⟩ := ih underWay
      refine ⟨more, delivered, ?_, course.ready underWay.ready⟩
      rw [run_ready rest underWay.ready]
      exact counted
    | row =>
      have step := next_underWay underWay
      generalize given : (next scan).result = result at step
      cases step with
      | @row tuple _ on =>
        obtain ⟨more, delivered, counted, course⟩ := ih on
        have whole : tuples ++ [tuple] ++ more = tuples ++ tuple :: more := List.append_assoc _ _ _
        rw [whole] at delivered counted course
        exact ⟨tuple :: more, delivered, counted, course.row given⟩
      | @ending ending _ why stopped =>
        refine ⟨[], ?_, ?_, ?_⟩
        · rw [List.append_nil]
          exact underWay.delivered
        · rw [List.append_nil]
          show (run rest (next scan).state).state.rowsReturned = _
          rw [(run_over stopped rest).2.1]
          exact stopped.counted
        · rw [List.append_nil]
          exact .ending given why stopped

/-- **A scan delivers a faithful beginning and fails for good.**  Whatever the source replies, a new scan
that has been made ready meets any demands, also to make itself ready again, as follows.  It returns the
tuples of the first records supplied, in order, and counts them.  Either that is all it is asked for, or
it comes to an ending then: the end of the rows or one fault, and from there on the end again or
refusals, without asking the source for anything. -/
theorem run_faithful (label : String) (source : Source) (config : ScanConfig)
    (demands : List Demand) :
    let scan := (init (ofSource label source config)).state
    ∃ tuples, Delivered config source.replies tuples ∧
      (run demands scan).state.rowsReturned = tuples.length ∧
      Course config source.replies tuples demands scan tuples :=
  course_of_underWay (underWay_start label source config) demands

end Scan

end WideRow
