import WideRow.Proofs.Plan.Walk
import WideRow.Proofs.Stream.Requests

/-!
# A merge is a stable sorted union

Inputs that come to their end without a fault, each in the order of its keys, are merged into all of
their rows in the order of their keys.  Rows with equal keys come in the order of the inputs, and the
rows of one input stay in their order.

* `StableUnion` says so of rows that are marked with the input they come from.
* `Merged.exists_rows` : rows can be taken from any lists until all are empty.
* `Merged.exists_union` : rows that are taken from ordered lists are a stable union of them, by
  induction on the taking.
* `Merge.stable_sorted_union` : main statement, on the answers of a merge.
-/

namespace WideRow

/-! ### Stable unions -/

/-- A row and the position of the input that it comes from. -/
structure Drawn where
  input : Nat
  tuple : Tuple

/-- The row may stand before the other: its key is not above, and if they are equal its input is not
after. -/
def Drawn.Precedes (a b : Drawn) : Prop :=
  compare a.tuple.key b.tuple.key ≠ .gt ∧ (a.tuple.key = b.tuple.key → a.input ≤ b.input)

/-- The rows that come from one input. -/
def drawnFrom (input : Nat) (drawn : List Drawn) : List Tuple :=
  (drawn.filter fun row => row.input == input).map Drawn.tuple

/-- Rows that come from inputs, sorted by their keys and then by their inputs. -/
structure StableUnion (inputs : List (List Tuple)) (drawn : List Drawn) : Prop where
  /-- Each input gives its rows in their order, and there are no others. -/
  whole : ∀ input, drawnFrom input drawn = inputs[input]?.getD []
  sorted : drawn.Pairwise Drawn.Precedes

theorem drawnFrom_cons_self (tuple : Tuple) (input : Nat) (drawn : List Drawn) :
    drawnFrom input (⟨input, tuple⟩ :: drawn) = tuple :: drawnFrom input drawn := by
  simp only [drawnFrom, List.filter_cons, beq_self_eq_true, if_true, List.map_cons]

theorem drawnFrom_cons_of_ne {row : Drawn} {input : Nat} (other : row.input ≠ input)
    (drawn : List Drawn) : drawnFrom input (row :: drawn) = drawnFrom input drawn := by
  rw [drawnFrom, List.filter_cons_of_neg]
  · rfl
  · rw [beq_iff_eq]
    exact other

theorem StableUnion.mem_input {inputs : List (List Tuple)} {drawn : List Drawn}
    (union : StableUnion inputs drawn) {row : Drawn} (member : row ∈ drawn) :
    ∃ rows, inputs[row.input]? = some rows ∧ row.tuple ∈ rows := by
  have inside : row.tuple ∈ drawnFrom row.input drawn :=
    List.mem_map_of_mem (List.mem_filter.mpr ⟨member, beq_self_eq_true row.input⟩)
  rw [union.whole] at inside
  cases found : inputs[row.input]? with
  | none =>
    rw [found] at inside
    exact absurd inside List.not_mem_nil
  | some rows =>
    rw [found] at inside
    exact ⟨rows, rfl, inside⟩

theorem StableUnion.keyOrdered {inputs : List (List Tuple)} {drawn : List Drawn}
    (union : StableUnion inputs drawn) : KeyOrdered (drawn.map Drawn.tuple) :=
  List.pairwise_map.mpr (union.sorted.imp And.left)

/-! ### Least heads -/

theorem notAbove_self (a : Bytes) : compare a a ≠ .gt := by
  rw [Std.compare_self]
  decide

theorem notAbove_of_notBelow {a b : Bytes} (notBelow : compare b a ≠ .lt) : compare a b ≠ .gt :=
  fun above => notBelow (Std.OrientedCmp.gt_iff_lt.mp above)

theorem below_trans {a b c : Bytes} (first : compare a b = .lt) (second : compare b c ≠ .gt) :
    compare a c = .lt :=
  Std.TransCmp.lt_of_lt_of_isLE first (Ordering.isLE_iff_ne_gt.mpr second)

/-- The first of ordered rows is not above any of them. -/
theorem KeyOrdered.head_notAbove {rows : List Tuple} (ordered : KeyOrdered rows) {tuple : Tuple}
    (member : tuple ∈ rows) : ∃ head ∈ rows.head?, compare head.key tuple.key ≠ .gt := by
  cases rows with
  | nil => exact absurd member List.not_mem_nil
  | cons first rest =>
    refine ⟨first, rfl, ?_⟩
    rcases List.mem_cons.mp member with here | there
    · rw [here]
      exact notAbove_self first.key
    · exact (List.pairwise_cons.mp ordered).1 tuple there

/-- A head that is below those before it and not above those after it is not above any. -/
theorem heads_notBelow {before after : List (List Tuple)} {tuple : Tuple} {rest : List Tuple}
    (earlier : ∀ rows ∈ before, ∀ head ∈ rows.head?, compare tuple.key head.key = .lt)
    (later : ∀ rows ∈ after, ∀ head ∈ rows.head?, compare head.key tuple.key ≠ .lt) :
    ∀ rows ∈ before ++ (tuple :: rest) :: after, ∀ head ∈ rows.head?,
      compare tuple.key head.key ≠ .gt := by
  refine List.forall_mem_append.mpr ⟨?_, List.forall_mem_cons.mpr ⟨?_, ?_⟩⟩
  · intro rows isBefore head isHead
    rw [earlier rows isBefore head isHead]
    decide
  · intro head isHead
    cases isHead
    exact notAbove_self tuple.key
  · intro rows isAfter head isHead
    exact notAbove_of_notBelow (later rows isAfter head isHead)

/-- One of the heads is the least, the first of equal ones, unless there is none. -/
theorem exists_least_head (inputs : List (List Tuple)) :
    (∀ rows ∈ inputs, rows = []) ∨
      ∃ before tuple rest after, inputs = before ++ (tuple :: rest) :: after ∧
        (∀ rows ∈ before, ∀ head ∈ rows.head?, compare tuple.key head.key = .lt) ∧
        ∀ rows ∈ after, ∀ head ∈ rows.head?, compare head.key tuple.key ≠ .lt := by
  induction inputs with
  | nil => exact .inl (List.forall_mem_nil _)
  | cons first inputs ih =>
    cases first with
    | nil =>
      rcases ih with empty | ⟨before, tuple, rest, after, rfl, earlier, later⟩
      · exact .inl (List.forall_mem_cons.mpr ⟨rfl, empty⟩)
      · refine .inr ⟨[] :: before, tuple, rest, after, rfl, ?_, later⟩
        refine List.forall_mem_cons.mpr ⟨?_, earlier⟩
        intro head isHead
        cases isHead
    | cons own others =>
      rcases ih with empty | ⟨before, tuple, rest, after, rfl, earlier, later⟩
      · refine .inr ⟨[], own, others, inputs, rfl, List.forall_mem_nil _, ?_⟩
        intro rows member head isHead
        rw [empty rows member] at isHead
        cases isHead
      · by_cases below : compare tuple.key own.key = .lt
        · refine .inr ⟨(own :: others) :: before, tuple, rest, after, rfl, ?_, later⟩
          refine List.forall_mem_cons.mpr ⟨?_, earlier⟩
          intro head isHead
          cases isHead
          exact below
        · -- the least of the others is not below the own head, so none of them is
          refine .inr ⟨[], own, others, _, rfl, List.forall_mem_nil _, ?_⟩
          intro rows member head isHead less
          have least := heads_notBelow earlier later rows member head isHead
          exact below (Std.TransCmp.lt_of_isLE_of_lt (Ordering.isLE_iff_ne_gt.mpr least) less)

/-! ### Rows taken from lists -/

/-- Rows can be taken from any lists until all are empty. -/
theorem Merged.exists_rows (inputs : List (List Tuple)) : ∃ rows, Merged inputs rows := by
  generalize size : inputs.flatten.length = count
  induction count generalizing inputs with
  | zero =>
    refine ⟨[], .done ?_⟩
    exact List.flatten_eq_nil_iff.mp (List.eq_nil_of_length_eq_zero size)
  | succ count ih =>
    rcases exists_least_head inputs with empty | ⟨before, tuple, rest, after, rfl, earlier, later⟩
    · rw [List.flatten_eq_nil_iff.mpr empty] at size
      cases size
    · have smaller : (before ++ rest :: after).flatten.length = count := by
        simp only [List.flatten_append, List.flatten_cons, List.length_append, List.length_cons]
          at size ⊢
        omega
      obtain ⟨rows, merged⟩ := ih _ smaller
      exact ⟨tuple :: rows, .take earlier later merged⟩

theorem Merged.perm {inputs : List (List Tuple)} {rows : List Tuple}
    (merged : Merged inputs rows) : rows.Perm inputs.flatten := by
  induction merged with
  | done empty =>
    rw [List.flatten_eq_nil_iff.mpr empty]
  | @take before after tuple rest merged _ _ _ ih =>
    rw [List.flatten_append, List.flatten_cons, List.cons_append]
    rw [List.flatten_append, List.flatten_cons] at ih
    exact (ih.cons tuple).trans List.perm_middle.symm

section Positions

variable {α : Type}

theorem getElem?_there (before after : List α) (middle : α) :
    (before ++ middle :: after)[before.length]? = some middle := by
  rw [List.getElem?_append_right (Nat.le_refl _), Nat.sub_self, List.getElem?_cons_zero]

theorem getElem?_behind (before after : List α) (middle : α) {position : Nat}
    (behind : before.length < position) :
    (before ++ middle :: after)[position]? = after[position - before.length - 1]? := by
  obtain ⟨distance, past⟩ : ∃ distance, position - before.length = distance + 1 :=
    ⟨position - before.length - 1, by omega⟩
  rw [List.getElem?_append_right (Nat.le_of_lt behind), past, List.getElem?_cons_succ,
    Nat.add_sub_cancel]

/-- An element of a list that is parted at a position stands before it, there or after it. -/
theorem parted_of_getElem? {before after : List α} {middle item : α} {position : Nat}
    (found : (before ++ middle :: after)[position]? = some item) :
    (position < before.length ∧ item ∈ before) ∨ (position = before.length ∧ item = middle) ∨
      (before.length < position ∧ item ∈ after) := by
  rcases Nat.lt_trichotomy position before.length with front | there | behind
  · rw [List.getElem?_append_left front] at found
    exact .inl ⟨front, List.mem_of_getElem? found⟩
  · rw [there, getElem?_there] at found
    injection found with same
    exact .inr (.inl ⟨there, same.symm⟩)
  · rw [getElem?_behind _ _ _ behind] at found
    exact .inr (.inr ⟨behind, List.mem_of_getElem? found⟩)

end Positions

/-- Taking the least head in front of a stable union of the rest makes a stable union. -/
theorem StableUnion.take {before after : List (List Tuple)} {tuple : Tuple} {rest : List Tuple}
    {drawn : List Drawn} (union : StableUnion (before ++ rest :: after) drawn)
    (ordered : ∀ rows ∈ before ++ (tuple :: rest) :: after, KeyOrdered rows)
    (earlier : ∀ rows ∈ before, ∀ head ∈ rows.head?, compare tuple.key head.key = .lt)
    (later : ∀ rows ∈ after, ∀ head ∈ rows.head?, compare head.key tuple.key ≠ .lt) :
    StableUnion (before ++ (tuple :: rest) :: after) (⟨before.length, tuple⟩ :: drawn) where
  whole := by
    intro input
    have same := union.whole input
    rcases Nat.lt_trichotomy input before.length with front | there | behind
    · rw [drawnFrom_cons_of_ne (Nat.ne_of_gt front), same, List.getElem?_append_left front,
        List.getElem?_append_left front]
    · rw [there] at same ⊢
      rw [drawnFrom_cons_self, same, getElem?_there, getElem?_there]
      rfl
    · rw [drawnFrom_cons_of_ne (Nat.ne_of_lt behind), same, getElem?_behind _ _ _ behind,
        getElem?_behind _ _ _ behind]
  sorted := by
    obtain ⟨orderedBefore, others⟩ := List.forall_mem_append.mp ordered
    obtain ⟨own, orderedAfter⟩ := List.forall_mem_cons.mp others
    refine List.pairwise_cons.mpr ⟨?_, union.sorted⟩
    intro row member
    obtain ⟨rows, found, inside⟩ := union.mem_input member
    rcases parted_of_getElem? found with ⟨_, isBefore⟩ | ⟨there, same⟩ | ⟨behind, isAfter⟩
    · -- the key is below those of the inputs before, so it is not the same
      obtain ⟨head, isHead, notAbove⟩ := (orderedBefore rows isBefore).head_notAbove inside
      have below := below_trans (earlier rows isBefore head isHead) notAbove
      refine ⟨?_, ?_⟩
      · show compare tuple.key row.tuple.key ≠ .gt
        rw [below]
        decide
      · intro equal
        rw [equal, Std.compare_self] at below
        cases below
    · rw [same] at inside
      exact ⟨(List.pairwise_cons.mp own).1 row.tuple inside, fun _ => Nat.le_of_eq there.symm⟩
    · obtain ⟨head, isHead, notAbove⟩ := (orderedAfter rows isAfter).head_notAbove inside
      exact ⟨compare_bytes_trans (notAbove_of_notBelow (later rows isAfter head isHead)) notAbove,
        fun _ => Nat.le_of_lt behind⟩

theorem stableUnion_empty {inputs : List (List Tuple)} (empty : ∀ rows ∈ inputs, rows = []) :
    StableUnion inputs [] where
  whole := by
    intro input
    cases found : inputs[input]? with
    | none => rfl
    | some rows => exact (empty rows (List.mem_of_getElem? found)).symm
  sorted := .nil

/-- Rows that are taken from ordered lists are a stable union of them. -/
theorem Merged.exists_union {inputs : List (List Tuple)} {rows : List Tuple}
    (merged : Merged inputs rows) (ordered : ∀ rows ∈ inputs, KeyOrdered rows) :
    ∃ drawn, drawn.map Drawn.tuple = rows ∧ StableUnion inputs drawn := by
  induction merged with
  | done empty => exact ⟨[], rfl, stableUnion_empty empty⟩
  | @take before after tuple rest merged earlier later _ ih =>
    obtain ⟨orderedBefore, others⟩ := List.forall_mem_append.mp ordered
    obtain ⟨own, orderedAfter⟩ := List.forall_mem_cons.mp others
    have orderedRest : ∀ rows ∈ rest :: after, KeyOrdered rows :=
      List.forall_mem_cons.mpr ⟨(List.pairwise_cons.mp own).2, orderedAfter⟩
    obtain ⟨drawn, same, union⟩ := ih (List.forall_mem_append.mpr ⟨orderedBefore, orderedRest⟩)
    refine ⟨⟨before.length, tuple⟩ :: drawn, ?_, union.take ordered earlier later⟩
    rw [List.map_cons, same]

namespace Merge

variable {ι : Type} [Operator ι]

/-- A merge that has come to its end stays as it is. -/
theorem stays_at_end (merge : Merge ι) (given : (Merge.next merge).result = .ok none) :
    (Merge.next merge).state = merge := by
  obtain ⟨lanes, ready⟩ := merge
  cases ready with
  | false => cases given
  | true =>
    cases chosen : choose lanes with
    | none => rw [next_of_empty chosen]
    | some choice =>
      rw [next_of_choice chosen] at given
      cases answered : (Operator.next choice.input).result with
      | error fault =>
        rw [answered] at given
        cases given
      | ok row =>
        rw [answered] at given
        cases given

/-- **A merge is a stable sorted union.**  If its inputs come to their end without a fault, each in the
order of its keys, a merge is made ready and answers with all rows of the inputs in the order of their
keys: rows with equal keys by the position of their input, the rows of each input in their order.  After
the last row it answers with the end, however often it is asked. -/
theorem stable_sorted_union (merge : Merge ι) {inputs : List (List Tuple)}
    (yields : List.Forall₂ (fun lane rows => Yields lane.input (Outcome.complete rows)) merge.lanes
      inputs)
    (ordered : ∀ rows ∈ inputs, KeyOrdered rows) :
    (Merge.init merge).result = .ok () ∧
      ∃ drawn, StableUnion inputs drawn ∧
        (drawn.map Drawn.tuple).Perm inputs.flatten ∧ KeyOrdered (drawn.map Drawn.tuple) ∧
        ∀ times, (ask Merge.next (drawn.length + times) (Merge.init merge).state).answers =
          rowAnswers (drawn.map Drawn.tuple) ++ List.replicate times (.ok none) := by
  obtain ⟨started, held, state, holds⟩ := init_holds yields merge.ready
  obtain ⟨rows, merged⟩ := Merged.exists_rows inputs
  obtain ⟨drawn, rfl, union⟩ := merged.exists_union ordered
  refine ⟨started, drawn, union, merged.perm, union.keyOrdered, ?_⟩
  intro times
  have answers := (delivers merged holds).answers stays_at_end times
  rw [List.length_map] at answers
  rw [state, answers]

/-! ### A merge of three scans -/

/-- The first and the last input have a key in common, and the second is empty. -/
def sampleInputs : List (List Tuple) :=
  [[Plan.sampleTuple 97 1, Plan.sampleTuple 99 1], [],
    [Plan.sampleTuple 97 0, Plan.sampleTuple 98 1]]

/-- The merge of these inputs. -/
def sampleMerge : Merge Scan := ⟨sampleInputs.map fun rows => ⟨Scan.ofRows "s" rows, none⟩, false⟩

theorem stable_sorted_union_three :
    List.Forall₂ (fun lane rows => Yields lane.input (Outcome.complete rows)) sampleMerge.lanes
        sampleInputs ∧
      (∀ rows ∈ sampleInputs, KeyOrdered rows) ∧
      (Merge.init sampleMerge).result = .ok () ∧
      (∃ drawn, StableUnion sampleInputs drawn ∧
        (ask Merge.next 5 (Merge.init sampleMerge).state).answers =
          rowAnswers (drawn.map Drawn.tuple) ++ [.ok none]) ∧
      (ask Merge.next 5 (Merge.init sampleMerge).state).answers =
        rowAnswers [Plan.sampleTuple 97 1, Plan.sampleTuple 97 0, Plan.sampleTuple 98 1,
          Plan.sampleTuple 99 1] ++ [.ok none] := by
  have formed : ∀ rows ∈ sampleInputs, WellFormed rows := by
    unfold WellFormed
    decide +kernel
  have ordered : ∀ rows ∈ sampleInputs, KeyOrdered rows := by
    unfold KeyOrdered
    decide +kernel
  have yields : List.Forall₂ (fun lane rows => Yields lane.input (Outcome.complete rows))
      sampleMerge.lanes sampleInputs := by
    refine List.forall₂_map_left_iff.mpr (List.forall₂_same.mpr ?_)
    intro rows member
    exact Scan.ofRows_yields (formed rows member) (ordered rows member) "s"
  obtain ⟨started, drawn, union, perm, _, answers⟩ := stable_sorted_union sampleMerge yields ordered
  have four : drawn.length = 4 := by
    have lengths := perm.length_eq
    rw [List.length_map] at lengths
    exact lengths
  have first := answers 1
  rw [four] at first
  exact ⟨yields, ordered, started, ⟨drawn, union, first⟩, by decide +kernel⟩

end Merge

end WideRow
