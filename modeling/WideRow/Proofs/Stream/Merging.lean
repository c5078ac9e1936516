import Mathlib.Data.List.Forall2
import WideRow.Proofs.Stream.Delivery

/-!
# What a merge yields

`Merged inputs rows` says how a merge takes rows from lists in order: the least head first, the head of
the earlier list if two are equal, until every list is empty.

* `Merge.yields` : if the inputs of a merge yield lists of rows without a fault, the merge yields the
  rows taken from these lists;
* `Merged.of_partition` : rows in the order of their keys that are divided among several inputs, equal
  keys staying together, are taken in their own order whatever the division.
-/

namespace WideRow

/-- Taking the least head again and again turns the lists into these rows. -/
inductive Merged : List (List Tuple) → List Tuple → Prop
  | done {inputs : List (List Tuple)} (empty : ∀ rows ∈ inputs, rows = []) : Merged inputs []
  | take {before after : List (List Tuple)} {tuple : Tuple} {rest merged : List Tuple}
      (earlier : ∀ rows ∈ before, ∀ head ∈ rows.head?, compare tuple.key head.key = .lt)
      (later : ∀ rows ∈ after, ∀ head ∈ rows.head?, compare head.key tuple.key ≠ .lt)
      (others : Merged (before ++ rest :: after) merged) :
      Merged (before ++ (tuple :: rest) :: after) (tuple :: merged)

/-- From a single list nothing but its own rows can be taken. -/
theorem Merged.eq_of_single {input rows : List Tuple} (merged : Merged [input] rows) :
    rows = input := by
  generalize alone : [input] = inputs at merged
  induction merged generalizing input with
  | done empty =>
    rw [← alone] at empty
    exact (empty input List.mem_cons_self).symm
  | @take before after tuple rest merged _ _ _ ih =>
    cases before with
    | nil =>
      cases alone
      rw [ih rfl]
    | cons first before =>
      injection alone with _ alone
      exact absurd alone.symm (List.append_ne_nil_of_right_ne_nil _ (List.cons_ne_nil _ _))

namespace Merge

variable {ι : Type}

/-! ### Choosing a lane -/

theorem choose_none {lanes : List (Lane ι)} (empty : ∀ lane ∈ lanes, lane.head = none) :
    choose lanes = none := by
  induction lanes with
  | nil => rfl
  | cons lane rest ih =>
    have others := ih fun other member => empty other (List.mem_cons_of_mem _ member)
    rw [choose, empty lane List.mem_cons_self, others]

/-- The lane that is chosen has its head below those before it and not above those after it. -/
theorem choose_least {before after : List (Lane ι)} {input : ι} {row : Tuple}
    (earlier : ∀ lane ∈ before, ∀ head ∈ lane.head, compare row.key head.key = .lt)
    (later : ∀ lane ∈ after, ∀ head ∈ lane.head, compare head.key row.key ≠ .lt) :
    choose (before ++ ⟨input, some row⟩ :: after) = some ⟨before, row, input, after⟩ := by
  induction before with
  | nil =>
    rw [List.nil_append, choose]
    cases others : choose after with
    | none => rfl
    | some choice =>
      have member : (⟨choice.input, some choice.row⟩ : Lane ι) ∈ after := by
        rw [choose_lanes others]
        exact List.mem_append_right _ List.mem_cons_self
      have above := later _ member choice.row rfl
      simp only [above, if_false]
  | cons lane before ih =>
    have others := ih fun other member => earlier other (List.mem_cons_of_mem _ member)
    rw [List.cons_append, choose, others]
    cases held : lane.head with
    | none => rfl
    | some head =>
      have below := earlier lane List.mem_cons_self head held
      simp only [below, if_true]

/-! ### Steps -/

section Steps

variable [Operator ι]

/-- The lane of an input after it has been asked for its next row. -/
def pulledLane (input : ι) : Lane ι := ⟨(Operator.next input).state, headOf (Operator.next input)⟩

theorem next_of_empty {lanes : List (Lane ι)} (empty : choose lanes = none) :
    Merge.next ⟨lanes, true⟩ = ⟨.ok none, ⟨lanes, true⟩, []⟩ := by
  simp only [Merge.next, empty, Bool.not_true, Bool.false_eq_true, if_false]

/-- The row that is chosen is returned only if its input does not fail to give the next one. -/
theorem next_of_choice {lanes : List (Lane ι)} {choice : Choice ι}
    (chosen : choose lanes = some choice) :
    Merge.next ⟨lanes, true⟩ =
      ⟨(Operator.next choice.input).result.map fun _ => some choice.row,
        ⟨choice.before ++ pulledLane choice.input :: choice.after, true⟩,
        (Operator.next choice.input).events⟩ := by
  simp only [Merge.next, chosen, Bool.not_true, Bool.false_eq_true, if_false]
  cases (Operator.next choice.input).result <;> rfl

end Steps

/-! ### Lanes that hold rows -/

section Lanes

variable [Operator ι]

/-- A lane holds exactly these rows: the first as its head, the others still in its input. -/
inductive LaneHolds : Lane ι → List Tuple → Prop
  | empty (input : ι) : LaneHolds ⟨input, none⟩ []
  | row {input : ι} (tuple : Tuple) {rest : List Tuple}
      (others : Delivers Operator.next input (Outcome.complete rest)) :
      LaneHolds ⟨input, some tuple⟩ (tuple :: rest)

theorem LaneHolds.head_eq {lane : Lane ι} {rows : List Tuple} (holds : LaneHolds lane rows) :
    lane.head = rows.head? := by
  cases holds <;> rfl

/-- Asking an input for its next row makes a lane that holds what the input delivers. -/
theorem laneHolds_pulled {input : ι} {rows : List Tuple}
    (delivers : Delivers Operator.next input (Outcome.complete rows)) :
    (∃ row, (Operator.next input).result = .ok row) ∧ LaneHolds (pulledLane input) rows := by
  generalize ending : Outcome.complete rows = outcome at delivers
  cases delivers with
  | finish given =>
    cases ending
    rw [pulledLane, headOf, given]
    exact ⟨⟨_, rfl⟩, .empty _⟩
  | fault given => cases ending
  | @row _ tuple outcome given others =>
    obtain ⟨later, ended⟩ := outcome
    cases ending
    rw [pulledLane, headOf, given]
    exact ⟨⟨_, rfl⟩, .row tuple others⟩

/-- What holds of the first row of every list holds of the head of every lane. -/
theorem heads_of_holds {lanes : List (Lane ι)} {inputs : List (List Tuple)}
    (holds : List.Forall₂ LaneHolds lanes inputs) {good : Tuple → Prop}
    (first : ∀ rows ∈ inputs, ∀ head ∈ rows.head?, good head) :
    ∀ lane ∈ lanes, ∀ head ∈ lane.head, good head := by
  induction holds with
  | nil => exact fun _ member => absurd member List.not_mem_nil
  | @cons lane rows _ _ held _ ih =>
    intro other member head isHead
    cases List.mem_cons.mp member with
    | inl here =>
      rw [here, held.head_eq] at isHead
      exact first rows List.mem_cons_self head isHead
    | inr there =>
      exact ih (fun rows member => first rows (List.mem_cons_of_mem _ member)) other there head
        isHead

/-- Lanes that hold lists of rows are divided where the lists are. -/
theorem divide_lanes {before after : List (List Tuple)} {rows : List Tuple}
    {lanes : List (Lane ι)} (holds : List.Forall₂ LaneHolds lanes (before ++ rows :: after)) :
    ∃ lanesBefore lane lanesAfter, lanes = lanesBefore ++ lane :: lanesAfter ∧
      List.Forall₂ LaneHolds lanesBefore before ∧ LaneHolds lane rows ∧
      List.Forall₂ LaneHolds lanesAfter after := by
  induction before generalizing lanes with
  | nil =>
    cases holds with
    | cons held others => exact ⟨[], _, _, rfl, .nil, held, others⟩
  | cons first before ih =>
    cases holds with
    | @cons lane _ _ _ held others =>
      obtain ⟨lanesBefore, chosen, lanesAfter, rfl, heldBefore, heldChosen, heldAfter⟩ := ih others
      exact ⟨lane :: lanesBefore, chosen, lanesAfter, rfl, .cons held heldBefore, heldChosen,
        heldAfter⟩

/-- A merge whose lanes hold some lists delivers the rows taken from them. -/
theorem delivers {inputs : List (List Tuple)} {rows : List Tuple} (merged : Merged inputs rows)
    {lanes : List (Lane ι)} (holds : List.Forall₂ LaneHolds lanes inputs) :
    Delivers Merge.next (⟨lanes, true⟩ : Merge ι) (Outcome.complete rows) := by
  induction merged generalizing lanes with
  | @done inputs empty =>
    have headless : ∀ lane ∈ lanes, ∀ head ∈ lane.head, False := by
      refine heads_of_holds holds ?_
      intro rows member head isHead
      rw [empty rows member] at isHead
      cases isHead
    have nothing : choose lanes = none :=
      choose_none fun lane member => Option.eq_none_iff_forall_not_mem.mpr (headless lane member)
    refine .finish ?_
    rw [next_of_empty nothing]
  | @take before after tuple rest merged earlier later _ ih =>
    obtain ⟨lanesBefore, lane, lanesAfter, rfl, heldBefore, held, heldAfter⟩ := divide_lanes holds
    cases held with
    | @row input _ _ others =>
      have chosen : choose (lanesBefore ++ ⟨input, some tuple⟩ :: lanesAfter) =
          some ⟨lanesBefore, tuple, input, lanesAfter⟩ :=
        choose_least (heads_of_holds heldBefore earlier) (heads_of_holds heldAfter later)
      obtain ⟨⟨row, given⟩, pulled⟩ := laneHolds_pulled others
      have step := next_of_choice chosen
      rw [given] at step
      show Delivers _ _ ((Outcome.complete merged).cons tuple)
      refine .row ?_ ?_
      · rw [step]
        rfl
      · rw [step]
        exact ih (List.rel_append heldBefore (.cons pulled heldAfter))

/-! ### Making the inputs ready -/

theorem initAll_yields {lanes : List (Lane ι)} {inputs : List (List Tuple)}
    (yields : List.Forall₂ (fun lane rows => Yields lane.input (Outcome.complete rows)) lanes
      inputs) :
    (initAll lanes).result = .ok () ∧
      List.Forall₂ (fun lane rows => Delivers Operator.next lane.input (Outcome.complete rows))
        (initAll lanes).state inputs := by
  induction yields with
  | nil => exact ⟨rfl, .nil⟩
  | cons first _ ih =>
    obtain ⟨started, delivers⟩ := first
    obtain ⟨startedOthers, deliversOthers⟩ := ih
    rw [initAll, started]
    exact ⟨startedOthers, .cons delivers deliversOthers⟩

theorem pullAll_holds {lanes : List (Lane ι)} {inputs : List (List Tuple)}
    (delivers : List.Forall₂
      (fun lane rows => Delivers Operator.next lane.input (Outcome.complete rows)) lanes inputs) :
    (pullAll lanes).result = .ok () ∧ List.Forall₂ LaneHolds (pullAll lanes).state inputs := by
  induction delivers with
  | nil => exact ⟨rfl, .nil⟩
  | cons first _ ih =>
    obtain ⟨⟨row, given⟩, held⟩ := laneHolds_pulled first
    obtain ⟨pulledOthers, heldOthers⟩ := ih
    rw [pullAll]
    simp only [given]
    exact ⟨pulledOthers, .cons held heldOthers⟩

theorem clearHeads_yields {lanes : List (Lane ι)} {inputs : List (List Tuple)}
    (yields : List.Forall₂ (fun lane rows => Yields lane.input (Outcome.complete rows)) lanes
      inputs) :
    List.Forall₂ (fun lane rows => Yields lane.input (Outcome.complete rows)) (clearHeads lanes)
      inputs :=
  List.forall₂_map_left_iff.mpr yields

/-- A merge of inputs that yield lists of rows is made ready, and holds these lists then. -/
theorem init_holds {lanes : List (Lane ι)} {inputs : List (List Tuple)}
    (yields : List.Forall₂ (fun lane rows => Yields lane.input (Outcome.complete rows)) lanes
      inputs) (ready : Bool) :
    (Merge.init (⟨lanes, ready⟩ : Merge ι)).result = .ok () ∧
      ∃ held, (Merge.init (⟨lanes, ready⟩ : Merge ι)).state = ⟨held, true⟩ ∧
        List.Forall₂ LaneHolds held inputs := by
  obtain ⟨started, delivers⟩ := initAll_yields (clearHeads_yields yields)
  obtain ⟨pulled, holds⟩ := pullAll_holds delivers
  have step : Merge.init (⟨lanes, ready⟩ : Merge ι) =
      ((pullAll (initAll (clearHeads lanes)).state).after
        (initAll (clearHeads lanes)).events).within fun lanes => ⟨lanes, true⟩ := by
    simp only [Merge.init, started, Step.after, pulled]
  rw [step]
  exact ⟨pulled, _, rfl, holds⟩

end Lanes

/-- A merge of inputs that yield lists of rows yields the rows taken from these lists. -/
theorem yields [Bounded ι] {inputs : List (List Tuple)} {rows : List Tuple}
    (merged : Merged inputs rows) {lanes : List (Lane ι)}
    (yields : List.Forall₂ (fun lane rows => Yields lane.input (Outcome.complete rows)) lanes
      inputs) (ready : Bool) :
    Yields (⟨lanes, ready⟩ : Merge ι) (Outcome.complete rows) := by
  obtain ⟨started, held, state, holds⟩ := init_holds yields ready
  refine ⟨started, ?_⟩
  show Delivers Merge.next (Merge.init _).state _
  rw [state]
  exact delivers merged holds

end Merge

/-! ### Rows divided among inputs -/

theorem exists_only_of_countP_eq_one {α : Type} {p : α → Bool} {items : List α}
    (once : items.countP p = 1) :
    ∃ before item after, items = before ++ item :: after ∧ p item = true ∧
      (∀ other ∈ before, p other = false) ∧ ∀ other ∈ after, p other = false := by
  induction items with
  | nil => cases once
  | cons first rest ih =>
    by_cases holds : p first = true
    · rw [List.countP_cons_of_pos holds] at once
      have none := List.countP_eq_zero.mp (Nat.succ.inj once)
      exact ⟨[], first, rest, rfl, holds, fun _ member => absurd member List.not_mem_nil,
        fun other member => Bool.eq_false_iff.mpr (none other member)⟩
    · rw [List.countP_cons_of_neg holds] at once
      obtain ⟨before, item, after, rfl, found, noneBefore, noneAfter⟩ := ih once
      refine ⟨first :: before, item, after, rfl, found, ?_, noneAfter⟩
      intro other member
      cases List.mem_cons.mp member with
      | inl here => rw [here]; exact Bool.eq_false_iff.mpr holds
      | inr there => exact noneBefore other there

/-- The rows that fall to each of some sets of keys. -/
def divideRows (parts : List (Bytes → Bool)) (tuples : List Tuple) : List (List Tuple) :=
  parts.map fun part => tuples.filter fun tuple => part tuple.key

theorem divideRows_of_outside {parts : List (Bytes → Bool)} {tuple : Tuple} {rest : List Tuple}
    (outside : ∀ part ∈ parts, part tuple.key = false) :
    divideRows parts (tuple :: rest) = divideRows parts rest := by
  refine List.map_congr_left ?_
  intro part member
  exact List.filter_cons_of_neg (Bool.eq_false_iff.mp (outside part member))

/-- Where a key is outside the sets, a row that it does not exceed begins none of their rows. -/
theorem heads_of_outside {parts : List (Bytes → Bool)} {tuple : Tuple} {rest : List Tuple}
    (outside : ∀ part ∈ parts, part tuple.key = false)
    (follow : ∀ other ∈ rest, compare tuple.key other.key ≠ .gt) :
    ∀ rows ∈ divideRows parts rest, ∀ head ∈ rows.head?, compare tuple.key head.key = .lt := by
  intro rows member head isHead
  obtain ⟨part, partMember, rfl⟩ := List.mem_map.mp member
  obtain ⟨inRest, inPart⟩ := List.mem_filter.mp (List.mem_of_mem_head? isHead)
  have notAbove := follow head inRest
  have notEqual : compare tuple.key head.key ≠ .eq := by
    intro same
    rw [← Std.LawfulEqOrd.eq_of_compare same, outside part partMember] at inPart
    cases inPart
  cases order : compare tuple.key head.key with
  | lt => rfl
  | eq => exact absurd order notEqual
  | gt => exact absurd order notAbove

/-- Rows in the order of their keys that are divided among sets of keys, each key in exactly one of
them, are taken in their own order. -/
theorem Merged.of_partition {parts : List (Bytes → Bool)} {tuples : List Tuple}
    (ordered : KeyOrdered tuples)
    (once : ∀ tuple ∈ tuples, parts.countP (fun part => part tuple.key) = 1) :
    Merged (divideRows parts tuples) tuples := by
  induction tuples with
  | nil =>
    refine .done ?_
    intro rows member
    obtain ⟨part, _, rfl⟩ := List.mem_map.mp member
    rfl
  | cons tuple rest ih =>
    obtain ⟨follow, orderedRest⟩ := List.pairwise_cons.mp ordered
    have others := ih orderedRest fun other member => once other (List.mem_cons_of_mem _ member)
    obtain ⟨before, part, after, rfl, inside, outsideBefore, outsideAfter⟩ :=
      exists_only_of_countP_eq_one (once tuple List.mem_cons_self)
    have divided : divideRows (before ++ part :: after) (tuple :: rest) =
        divideRows before rest ++ (tuple :: rest.filter fun other => part other.key) ::
          divideRows after rest := by
      have taken : (tuple :: rest).filter (fun other => part other.key) =
          tuple :: rest.filter fun other => part other.key := List.filter_cons_of_pos inside
      rw [← divideRows_of_outside outsideBefore, ← divideRows_of_outside outsideAfter, ← taken]
      unfold divideRows
      rw [List.map_append, List.map_cons]
    rw [divided]
    refine .take (heads_of_outside outsideBefore follow) ?_ ?_
    · intro rows member head isHead
      have below := heads_of_outside outsideAfter follow rows member head isHead
      rw [Std.OrientedOrd.eq_swap, below]
      decide
    · rw [divideRows, List.map_append, List.map_cons] at others
      exact others

end WideRow
