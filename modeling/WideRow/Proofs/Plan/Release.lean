import WideRow.Proofs.Plan.Walk
import WideRow.Proofs.Stream.Custody
import WideRow.Proofs.Stream.Requests

/-!
# Which sources a plan closes

The sources of a plan are opened when going through its rows begins, before any row is asked for.  What
is closed until the sequence of rows is dropped is a matter of balance: from its first request on, what a
sequence has closed and what dropping it would close make up the sources of its operator
(`RowSequence.ask_balance`).  A sequence that is never asked has not made its operator ready and closes
nothing when it is dropped; and if one split cannot be opened, the scans of the splits before it are never
put under a sequence.

`Plan.released_iff` : every source that was opened is closed, once, if a row was asked for and every split
could be opened, and otherwise none is.
-/

namespace WideRow

/-! ### Sequences -/

namespace RowSequence

variable {ω : Type} [Custodian ω]

/-- What dropping a sequence would close. -/
def owed : RowSequence ω → List String
  | running root => Custodian.owed root
  | _ => []

theorem drop_owed (rows : RowSequence ω) : closings (drop rows).events = owed rows := by
  cases rows with
  | running root => exact Custodian.close_owed root
  | refused fault => rfl
  | waiting root => rfl
  | finished root => rfl
  | failed root => rfl

/-- An operator that is ready is asked for a row: what is closed meanwhile is no longer owed. -/
theorem advance_balance (root : ω) :
    closings (advance root).events ++ owed (advance root).state = Custodian.owed root := by
  obtain ⟨owes, quiet⟩ := Custodian.next_keeps root
  have settled : closings (Operator.close (Operator.next root).state).events = Custodian.owed root := by
    rw [Custodian.close_owed, owes]
  rcases advance_cases root with ⟨tuple, _, step⟩ | ⟨_, step⟩ | ⟨fault, _, step⟩
  · rw [step]
    show closings (Operator.next root).events ++ Custodian.owed (Operator.next root).state = _
    rw [quiet, owes, List.nil_append]
  · rw [step]
    show closings ((Operator.next root).events ++ _) ++ [] = _
    rw [closings_append, quiet, List.append_nil]
    exact settled
  · rw [step]
    show closings ((Operator.next root).events ++ _) ++ [] = _
    rw [closings_append, quiet, List.append_nil]
    exact settled

/-- A sequence that need not make an operator ready at its next request. -/
def Begun : RowSequence ω → Prop
  | waiting _ => False
  | _ => True

theorem advance_begun (root : ω) : (advance root).state.Begun := by
  rcases advance_cases root with ⟨_, _, step⟩ | ⟨_, step⟩ | ⟨_, _, step⟩
  · rw [step]
    exact trivial
  · rw [step]
    exact trivial
  · rw [step]
    exact trivial

theorem next_begun (rows : RowSequence ω) : (next rows).state.Begun := by
  cases rows with
  | waiting root =>
    cases started : (Operator.init root).result with
    | error fault =>
      rw [next_of_refused started]
      exact trivial
    | ok _ =>
      rw [next_of_started started]
      exact advance_begun (Operator.init root).state
  | running root => exact advance_begun root
  | refused fault => exact trivial
  | finished root => exact trivial
  | failed root => exact trivial

/-- What a request closes is no longer owed. -/
theorem next_balance {rows : RowSequence ω} (begun : rows.Begun) :
    closings (next rows).events ++ owed (next rows).state = owed rows := by
  cases rows with
  | waiting root => exact absurd begun not_false
  | running root => exact advance_balance root
  | refused fault => rfl
  | finished root => rfl
  | failed root => rfl

/-- The first request makes up for the sources that the operator holds. -/
theorem first_balance {root : ω} {names : List String} (holds : Holds root names) :
    closings (next (waiting root)).events ++ owed (next (waiting root)).state = names := by
  cases started : (Operator.init root).result with
  | error fault =>
    rw [next_of_refused started]
    show closings ((Operator.init root).events ++ (Operator.close _).events) ++ [] = names
    rw [List.append_nil, closings_append, holds.quiet, Custodian.close_owed, holds.owes,
      List.nil_append]
  | ok _ =>
    rw [next_of_started started]
    show closings ((Operator.init root).events ++ (advance _).events) ++ owed (advance _).state = names
    rw [closings_append, holds.quiet, List.nil_append, advance_balance, holds.owes]

/-- Over any number of requests nothing is lost: what they close and what is owed after them was owed
before. -/
theorem ask_balance {rows : RowSequence ω} (begun : rows.Begun) (count : Nat) :
    closings (ask next count rows).events ++ owed (ask next count rows).state = owed rows := by
  induction count generalizing rows with
  | zero => rfl
  | succ count ih =>
    show closings ((next rows).events ++ (ask next count (next rows).state).events) ++
      owed (ask next count (next rows).state).state = _
    rw [closings_append, List.append_assoc, ih (next_begun rows), next_balance begun]

/-- What a sequence closes that is asked for some rows and dropped: if it is asked at all, the sources
that its operator holds. -/
theorem closings_of_waiting {root : ω} {names : List String} (holds : Holds root names)
    (count : Nat) :
    closings (ask next count (waiting root)).events ++
        closings (drop (ask next count (waiting root)).state).events =
      if 0 < count then names else [] := by
  rw [drop_owed]
  cases count with
  | zero =>
    -- the operator has not been made ready, and is not closed either
    rfl
  | succ count =>
    show closings ((next (waiting root)).events ++ (ask next count _).events) ++
      owed (ask next count _).state = _
    rw [closings_append, List.append_assoc, ask_balance (next_begun _), first_balance holds,
      if_pos count.succ_pos]

theorem closings_of_refused (fault : QueryFault) (count : Nat) :
    closings (ask next count (refused fault : RowSequence ω)).events ++
      closings (drop (ask next count (refused fault : RowSequence ω)).state).events = [] := by
  have begun : (refused fault : RowSequence ω).Begun := trivial
  rw [drop_owed, ask_balance begun]
  rfl

end RowSequence

/-! ### The operators of a plan -/

namespace Plan

/-- The sources of some scans, as they are seen to be closed. -/
def scanClosings (scans : List Scan) : List String := (scans.map Scan.source).flatMap Source.closings

theorem mergeSegments_holds (scans : List Scan) : Holds (mergeSegments scans) (scanClosings scans) := by
  unfold mergeSegments
  split
  · -- one segment stands for itself
    rename_i scan
    have single : scanClosings [scan] = scan.source.closings := List.append_nil _
    rw [single]
    exact Stage.holds_pass scan.holds
  · have lanes : Holds (⟨scans.map fun scan => ⟨scan, none⟩, false⟩ : Merge Scan) _ :=
      Merge.holds (fun scan => scan.source.closings) (List.forall_mem_map.mpr fun _ _ => rfl)
        (List.forall_mem_map.mpr fun scan _ => scan.holds)
    rw [List.flatMap_map] at lanes
    rw [scanClosings, List.flatMap_map]
    exact Stage.holds_merge lanes

theorem selectRows_holds (residual : Option Expr) {segments : Stage Scan} {names : List String}
    (holds : Holds segments names) : Holds (selectRows residual segments) names := by
  cases residual with
  | none => exact Stage.holds_pass holds
  | some condition =>
    have rows : Holds (⟨segments, condition, false⟩ : Selection (Stage Scan)) names :=
      Selection.holds holds
    exact Stage.holds_selection rows

theorem limitRows_holds (limit : Option Nat) {rows : Stage (Stage Scan)} {names : List String}
    (holds : Holds rows names) : Holds (limitRows limit rows) names := by
  cases limit with
  | none => exact Stage.holds_pass holds
  | some most =>
    have first : Holds (⟨rows, most, 0, false⟩ : Limit (Stage (Stage Scan))) names :=
      Limit.holds holds
    exact Stage.holds_limit first

/-- The operators of a plan hold the sources of its scans. -/
theorem assemble_holds (plan : Plan) (scans : List Scan) :
    Holds (plan.assemble scans) (scanClosings scans) :=
  limitRows_holds _ (selectRows_holds _ (mergeSegments_holds scans))

/-! ### Opening -/

section Opening

variable {κ : Type} [Opener κ]

/-- The sources that are opened for some splits: one for each, up to the first that cannot be opened. -/
def openedSources (plan : Plan) (opener : κ) : List KeyRange → List Source
  | [] => []
  | range :: rest =>
    match Opener.openScan opener (plan.request range) with
    | (.error _, _) => []
    | (.ok source, opener) => source :: openedSources plan opener rest

/-- Opening closes nothing. -/
theorem openSegments_closings (plan : Plan) (opener : κ) (splits : List KeyRange) :
    closings (plan.openSegments opener splits).events = [] := by
  induction splits generalizing opener with
  | nil => rfl
  | cons range rest ih =>
    rw [openSegments]
    rcases Opener.openScan opener (plan.request range) with ⟨reply, later⟩
    cases reply with
    | error failure => rfl
    | ok source =>
      have others : closings ([openEvent (plan.request range)] ++
          (plan.openSegments later rest).events) = [] := by
        rw [closings_append, ih later]
        rfl
      simp only [Step.after]
      split <;> exact others

/-- Either every split is opened, and the scans are those of the opened sources, or there is a fault. -/
theorem openSegments_sources (plan : Plan) (opener : κ) (splits : List KeyRange) :
    (∃ scans, (plan.openSegments opener splits).result = .ok scans ∧
        scans.map Scan.source = plan.openedSources opener splits ∧
        (plan.openedSources opener splits).length = splits.length) ∨
      (∃ fault, (plan.openSegments opener splits).result = .error fault ∧
        (plan.openedSources opener splits).length < splits.length) := by
  induction splits generalizing opener with
  | nil => exact .inl ⟨[], rfl, rfl, rfl⟩
  | cons range rest ih =>
    rw [openSegments, openedSources]
    rcases Opener.openScan opener (plan.request range) with ⟨reply, later⟩
    cases reply with
    | error failure => exact .inr ⟨_, rfl, Nat.succ_pos _⟩
    | ok source =>
      simp only [Step.after]
      rcases ih later with ⟨scans, opened, sources, all⟩ | ⟨fault, failed, fewer⟩
      · rw [opened]
        refine .inl ⟨_, rfl, ?_, ?_⟩
        · rw [List.map_cons, sources]
          rfl
        · rw [List.length_cons, List.length_cons, all]
      · rw [failed]
        exact .inr ⟨fault, rfl, Nat.succ_lt_succ fewer⟩

/-! ### The whole account -/

/-- Everything that is asked of the opener and of the sources when going through the rows of a plan
begins, a number of rows is asked for and the sequence is dropped. -/
def sessionEvents (plan : Plan) (opener : κ) (count : Nat) : List Event :=
  let begun := plan.scanner opener
  let asked := ask RowSequence.next count begun.1
  begun.2.2 ++ asked.events ++ (RowSequence.drop asked.state).events

/-- Every source that was opened has been closed once, and no other. -/
def Released (plan : Plan) (opener : κ) (count : Nat) : Prop :=
  (closings (plan.sessionEvents opener count)).Perm
    ((plan.openedSources opener plan.splits).flatMap Source.closings)

instance (plan : Plan) (opener : κ) (count : Nat) : Decidable (plan.Released opener count) :=
  inferInstanceAs (Decidable (List.Perm _ _))

/-- What is closed: all sources that were opened, in their order, or none. -/
theorem closings_sessionEvents (plan : Plan) (opener : κ) (count : Nat) :
    closings (plan.sessionEvents opener count) =
      if 0 < count ∧ (plan.openedSources opener plan.splits).length = plan.splits.length then
        (plan.openedSources opener plan.splits).flatMap Source.closings
      else [] := by
  have quiet := plan.openSegments_closings opener plan.splits
  rw [sessionEvents, closings_append, closings_append]
  rcases plan.openSegments_sources opener plan.splits with
    ⟨scans, opened, sources, all⟩ | ⟨fault, failed, fewer⟩
  · have begun : plan.scanner opener = (.waiting (plan.assemble scans),
        (plan.openSegments opener plan.splits).state,
        (plan.openSegments opener plan.splits).events) := by
      simp only [scanner, opened]
    have closed := RowSequence.closings_of_waiting (plan.assemble_holds scans) count
    rw [begun, quiet, List.nil_append, closed, scanClosings, sources]
    simp only [all, and_true]
  · have begun : plan.scanner opener = (.refused fault,
        (plan.openSegments opener plan.splits).state,
        (plan.openSegments opener plan.splits).events) := by
      simp only [scanner, failed]
    rw [begun, quiet, List.nil_append, RowSequence.closings_of_refused,
      if_neg fun both => Nat.ne_of_lt fewer both.2]

/-- Nothing can be seen of closing the sources if closing each of them does nothing. -/
theorem flatMap_closings_eq_nil (sources : List Source) :
    sources.flatMap Source.closings = [] ↔ ∀ source ∈ sources, source.silent = true := by
  rw [List.flatMap_eq_nil_iff]
  exact forall₂_congr fun source _ => source.closings_eq_nil

/-- **When the sources of a plan are closed.**  Whatever the opener and the sources do, of a sequence
that is asked for a number of rows and then dropped, either every source that was opened is closed once,
or none is.  They are closed if a row was asked for and every split could be opened.  Otherwise sources
are left open, unless closing them would do nothing. -/
theorem released_iff (plan : Plan) (opener : κ) (count : Nat) :
    let opened := plan.openedSources opener plan.splits
    (closings (plan.sessionEvents opener count) =
      if 0 < count ∧ opened.length = plan.splits.length then opened.flatMap Source.closings
      else []) ∧
    (plan.Released opener count ↔
      (0 < count ∧ opened.length = plan.splits.length) ∨
        ∀ source ∈ opened, source.silent = true) := by
  intro opened
  have account := plan.closings_sessionEvents opener count
  refine ⟨account, ?_⟩
  rw [Released, account]
  by_cases whole : 0 < count ∧ opened.length = plan.splits.length
  · rw [if_pos whole]
    exact iff_of_true (.refl _) (.inl whole)
  · rw [if_neg whole, List.nil_perm, flatMap_closings_eq_nil]
    exact (or_iff_right whole).symm

end Opening

/-- Two opened sources are left open by a sequence that is dropped before it is asked for a row, and one
by a sequence that begins with the fault of the second split. -/
theorem not_released :
    ¬ samplePlan.Released sampleStore 0 ∧
      ¬ samplePlan.Released { sampleStore with failOpening := some 2 } 1 := by
  decide +kernel

end Plan

end WideRow
