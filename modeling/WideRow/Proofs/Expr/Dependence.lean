import Mathlib.Data.List.Induction
import WideRow.Projection
import WideRow.Proofs.Expr.Columns
import WideRow.Row.Tuple

/-!
# What expressions and projections depend on

`Expr.leaves` lists the columns at the leaves of a tree as they stand, from the left.  The columns that
are collected are these, each where it is first seen (`FirstSeen`).  Two rows that look alike in them
(`Column.Alike`) cannot be told apart by evaluating, nor by projecting.  Main statement:
`Projection.depends_on_referenced`.
-/

namespace WideRow

/-! ### First seen -/

/-- A list holds the members of another one without repetition, in the order of their first places. -/
structure FirstSeen (leaves columns : List Column) : Prop where
  same : ∀ c, c ∈ columns ↔ c ∈ leaves
  once : columns.Nodup
  order : columns.Pairwise fun a b => leaves.idxOf a < leaves.idxOf b

/-- The members of a list, each put behind those already seen unless it is one of them. -/
def Column.addAll (seen columns : List Column) : List Column := columns.foldl Column.addNew seen

theorem mem_addAll {c : Column} {seen columns : List Column} :
    c ∈ Column.addAll seen columns ↔ c ∈ seen ∨ c ∈ columns := by
  induction columns generalizing seen with
  | nil => exact (or_iff_left List.not_mem_nil).symm
  | cons first rest ih =>
    have others := @ih (Column.addNew seen first)
    rw [Column.addAll, List.foldl_cons]
    rw [Column.addAll, Expr.mem_addNew] at others
    rw [others, List.mem_cons, or_assoc]

theorem addAll_snoc (seen columns : List Column) (c : Column) :
    Column.addAll seen (columns ++ [c]) = Column.addNew (Column.addAll seen columns) c := by
  rw [Column.addAll, List.foldl_append]
  rfl

theorem addNew_of_mem {c : Column} {seen : List Column} (known : c ∈ seen) :
    Column.addNew seen c = seen := if_pos known

theorem addNew_of_not_mem {c : Column} {seen : List Column} (unknown : c ∉ seen) :
    Column.addNew seen c = seen ++ [c] := if_neg unknown

/-- What is added once may as well be added as it stands. -/
theorem addAll_addAll (seen columns : List Column) :
    Column.addAll seen (Column.addAll [] columns) = Column.addAll seen columns := by
  induction columns using List.reverseRecOn with
  | nil => rfl
  | append_singleton front c ih =>
    rw [addAll_snoc, addAll_snoc, ← ih]
    by_cases known : c ∈ Column.addAll [] front
    · rw [addNew_of_mem known, addNew_of_mem (mem_addAll.mpr (.inr known))]
    · rw [addNew_of_not_mem known, addAll_snoc]

/-- Adding the members of a list to nothing keeps each where it is first seen. -/
theorem firstSeen_addAll (leaves : List Column) : FirstSeen leaves (Column.addAll [] leaves) := by
  induction leaves using List.reverseRecOn with
  | nil => exact ⟨fun _ => Iff.rfl, List.nodup_nil, List.Pairwise.nil⟩
  | append_singleton front c ih =>
    have members : ∀ a, a ∈ Column.addAll [] (front ++ [c]) ↔ a ∈ front ++ [c] := fun a =>
      mem_addAll.trans (or_iff_right List.not_mem_nil)
    -- a longer list does not move the first places
    have places : ∀ a ∈ Column.addAll [] front, (front ++ [c]).idxOf a = front.idxOf a :=
      fun a seen => List.idxOf_append_of_mem ((ih.same a).mp seen)
    have order : (Column.addAll [] front).Pairwise
        fun a b => (front ++ [c]).idxOf a < (front ++ [c]).idxOf b := by
      refine ih.order.imp_of_mem ?_
      intro a b seenA seenB before
      rw [places a seenA, places b seenB]
      exact before
    by_cases known : c ∈ Column.addAll [] front
    · have kept : Column.addAll [] (front ++ [c]) = Column.addAll [] front := by
        rw [addAll_snoc, addNew_of_mem known]
      exact ⟨members, kept ▸ ih.once, kept ▸ order⟩
    · have grown : Column.addAll [] (front ++ [c]) = Column.addAll [] front ++ [c] := by
        rw [addAll_snoc, addNew_of_not_mem known]
      have unseen : c ∉ front := fun member => known ((ih.same c).mpr member)
      refine ⟨members, ?_, ?_⟩
      · rw [grown]
        refine List.nodup_append.mpr ⟨ih.once, List.pairwise_singleton _ c, ?_⟩
        intro a seen b last
        rw [List.mem_singleton.mp last]
        intro same
        exact known (same ▸ seen)
      · rw [grown]
        refine List.pairwise_append.mpr ⟨order, List.pairwise_singleton _ c, ?_⟩
        intro a seen b last
        have inside := List.idxOf_lt_length_of_mem ((ih.same a).mp seen)
        have atEnd : (front ++ [c]).idxOf c = front.length := by
          rw [List.idxOf_append_of_notMem unseen, List.idxOf_cons_self, Nat.add_zero]
        rw [List.mem_singleton.mp last, places a seen, atEnd]
        exact inside

/-! ### The leaves of a tree -/

namespace Expr

mutual

/-- The columns at the leaves of an expression, from the left, as often as they occur. -/
def leaves : Expr → List Column
  | literal _ _ => []
  | column c => [c]
  | arithmetic _ operands => leavesOfAll operands
  | comparison _ left right => leaves left ++ leaves right

/-- The columns at the leaves of some expressions. -/
def leavesOfAll : List Expr → List Column
  | [] => []
  | e :: rest => leaves e ++ leavesOfAll rest

end

theorem foldl_collectColumns {operands : List Expr}
    (each : ∀ operand ∈ operands, ∀ seen, operand.collectColumns seen =
      Column.addAll seen operand.leaves) (seen : List Column) :
    operands.foldl collectColumns seen = Column.addAll seen (leavesOfAll operands) := by
  induction operands generalizing seen with
  | nil => rfl
  | cons e rest ih =>
    have others := ih fun operand member => each operand (List.mem_cons_of_mem _ member)
    rw [List.foldl_cons, others, each e List.mem_cons_self, leavesOfAll]
    exact List.foldl_append.symm

/-- Collecting goes through the leaves from the left. -/
theorem collectColumns_eq (e : Expr) (seen : List Column) :
    e.collectColumns seen = Column.addAll seen e.leaves := by
  induction e generalizing seen with
  | literal value type => rfl
  | column c => rfl
  | arithmetic op operands ih =>
    rw [collectColumns_arithmetic, foldl_collectColumns ih, leaves]
  | comparison op left right ihLeft ihRight =>
    rw [collectColumns_comparison, ihRight, ihLeft, leaves]
    exact List.foldl_append.symm

/-- The referenced columns are the leaves, each where it is first seen. -/
theorem firstSeen_referencedColumns (e : Expr) : FirstSeen e.leaves e.referencedColumns := by
  rw [referencedColumns, collectColumns_eq]
  exact firstSeen_addAll e.leaves

end Expr

/-! ### Rows that look alike -/

/-- A column is found in both rows with the same value, or missing in both. -/
def Column.Alike (row other : Row) (column : Column) : Prop :=
  ∃ found held, row.lookup column.family column.qualifier = .ok found ∧
    other.lookup column.family column.qualifier = .ok held ∧
    found.map (fun placed => placed.cell.value) = held.map fun placed => placed.cell.value

theorem Column.Alike.columnValue {row other : Row} {column : Column}
    (alike : column.Alike row other) :
    row.columnValue column.family column.qualifier =
      other.columnValue column.family column.qualifier := by
  obtain ⟨found, held, lookedUp, lookedUpOther, same⟩ := alike
  rw [Row.columnValue, Row.columnValue, lookedUp, lookedUpOther]
  exact congrArg Except.ok same

namespace Expr

/-- Rows that look alike in the referenced columns give the same value or the same fault. -/
theorem evaluate_of_alike {e : Expr} {row other : Row}
    (alike : ∀ c ∈ e.referencedColumns, c.Alike row other) :
    e.evaluate row = e.evaluate other :=
  evaluate_congr fun c inside => (alike c (mem_referencedColumns.mpr inside)).columnValue

theorem evaluatePredicate_of_alike {e : Expr} {row other : Row}
    (alike : ∀ c ∈ e.referencedColumns, c.Alike row other) :
    e.evaluatePredicate row = e.evaluatePredicate other := by
  rw [evaluatePredicate, evaluatePredicate, evaluate_of_alike alike]

end Expr

/-! ### Projections -/

namespace Projection

/-- The columns at the leaves of all output columns. -/
def leaves (projection : Projection) : List Column :=
  projection.columns.flatMap fun column => column.expression.leaves

theorem foldl_referencedColumns (columns : List OutputColumn) (seen : List Column) :
    columns.foldl (fun seen column =>
        column.expression.referencedColumns.foldl Column.addNew seen) seen =
      Column.addAll seen (columns.flatMap fun column => column.expression.leaves) := by
  induction columns generalizing seen with
  | nil => rfl
  | cons column rest ih =>
    have first : column.expression.referencedColumns.foldl Column.addNew seen =
        Column.addAll seen column.expression.leaves := by
      rw [Expr.referencedColumns, Expr.collectColumns_eq]
      exact addAll_addAll seen column.expression.leaves
    rw [List.foldl_cons, first, ih, List.flatMap_cons]
    exact List.foldl_append.symm

theorem firstSeen_referencedColumns (projection : Projection) :
    FirstSeen projection.leaves projection.referencedColumns := by
  rw [referencedColumns, foldl_referencedColumns]
  exact firstSeen_addAll projection.leaves

theorem mem_referencedColumns {projection : Projection} {column : OutputColumn} {c : Column}
    (member : column ∈ projection.columns) (reads : c ∈ column.expression.referencedColumns) :
    c ∈ projection.referencedColumns := by
  have leaf := (column.expression.firstSeen_referencedColumns.same c).mp reads
  exact (projection.firstSeen_referencedColumns.same c).mpr
    (List.mem_flatMap.mpr ⟨column, member, leaf⟩)

theorem projectFrom_congr {columns : List OutputColumn} {row other : Row}
    (each : ∀ column ∈ columns, column.expression.evaluate row = column.expression.evaluate other)
    (projected : ProjectedRow) :
    projectFrom row projected columns = projectFrom other projected columns := by
  induction columns generalizing projected with
  | nil => rfl
  | cons column rest ih =>
    rw [projectFrom, projectFrom, each column List.mem_cons_self]
    have others := ih fun column member => each column (List.mem_cons_of_mem _ member)
    exact bind_congr fun value => others (projected.set column.name value)

theorem project_of_alike {projection : Projection} {row other : Row}
    (alike : ∀ c ∈ projection.referencedColumns, c.Alike row other) :
    projection.project row = projection.project other := by
  refine projectFrom_congr ?_ ProjectedRow.empty
  intro column member
  exact Expr.evaluate_of_alike fun c reads => alike c (mem_referencedColumns member reads)

/-- **Only the referenced columns count.**  Two rows of any kind that look alike in the columns that an
expression references give it the same value or the same fault, as a value and as a predicate, and these
columns are the leaves of its tree, each where it is first seen.  The same holds of a projection. -/
theorem depends_on_referenced (e : Expr) (projection : Projection) :
    (∀ row other : Row, (∀ c ∈ e.referencedColumns, c.Alike row other) →
        e.evaluate row = e.evaluate other ∧
          e.evaluatePredicate row = e.evaluatePredicate other) ∧
      FirstSeen e.leaves e.referencedColumns ∧
      (∀ row other : Row, (∀ c ∈ projection.referencedColumns, c.Alike row other) →
        projection.project row = projection.project other) ∧
      FirstSeen projection.leaves projection.referencedColumns := by
  refine ⟨?_, e.firstSeen_referencedColumns, ?_, projection.firstSeen_referencedColumns⟩
  · intro row other alike
    exact ⟨Expr.evaluate_of_alike alike, Expr.evaluatePredicate_of_alike alike⟩
  · intro row other alike
    exact project_of_alike alike

/-- A cell of the family `f` with one byte for its value. -/
def sampleCell (row qualifier value : UInt8) : Cell :=
  ⟨[row], [102], [qualifier], Signed.zero 64, 4, [value]⟩

/-- The row `a` as a record, with the columns `f:q` and `f:r`. -/
def recordRow : Row :=
  Tuple.row ⟨Record.entry (sampleCell 97 113 1).bytes ++ Record.entry (sampleCell 97 114 0).bytes,
    14, 1⟩

/-- The row `b` as separate cells, with the column `f:q` alone. -/
def cellsRow : Row := ⟨Span.whole [98], .cells [⟨[], 0, sampleCell 98 113 1⟩]⟩

/-- The column `f:q`, which both rows have, and the column `f:x`, which neither has. -/
def sampleColumns : List Column := [⟨[102], [113], .boolean⟩, ⟨[102], [120], .boolean⟩]

/-- Whether the column `f:q` is true. -/
def sampleExpr : Expr :=
  .comparison .equal (.column ⟨[102], [113], .boolean⟩) (.literal (.boolean true) none)

theorem depends_on_referenced_two_shapes :
    (∀ c ∈ sampleExpr.referencedColumns, c.Alike recordRow cellsRow) ∧
      sampleExpr.evaluate recordRow = .ok (.boolean true) ∧
      sampleExpr.evaluate cellsRow = .ok (.boolean true) ∧
      (∀ c ∈ Projection.referencedColumns ⟨sampleColumns.map OutputColumn.ofColumn⟩,
        c.Alike recordRow cellsRow) ∧
      project ⟨sampleColumns.map OutputColumn.ofColumn⟩ recordRow =
        project ⟨sampleColumns.map OutputColumn.ofColumn⟩ cellsRow := by
  have found : recordRow.lookup [102] [113] =
      .ok (some ⟨recordRow.key.buffer, 4, sampleCell 97 113 1⟩) := by decide +kernel
  have held : cellsRow.lookup [102] [113] = .ok (some ⟨[], 0, sampleCell 98 113 1⟩) := by
    decide +kernel
  have absent : recordRow.lookup [102] [120] = .ok none ∧ cellsRow.lookup [102] [120] = .ok none := by
    decide +kernel
  have alike : ∀ c ∈ sampleColumns, c.Alike recordRow cellsRow := by
    refine List.forall_mem_cons.mpr ⟨⟨_, _, found, held, rfl⟩, List.forall_mem_singleton.mpr ?_⟩
    exact ⟨_, _, absent.1, absent.2, rfl⟩
  have listed : sampleExpr.referencedColumns ⊆ sampleColumns := by decide +kernel
  have projected : Projection.referencedColumns ⟨sampleColumns.map OutputColumn.ofColumn⟩ ⊆
      sampleColumns := by decide +kernel
  have value : sampleExpr.evaluate recordRow = .ok (.boolean true) := by decide +kernel
  obtain ⟨evaluated, _, output, _⟩ :=
    depends_on_referenced sampleExpr ⟨sampleColumns.map OutputColumn.ofColumn⟩
  have alikeInExpr := fun c member => alike c (listed member)
  have alikeInOutput := fun c member => alike c (projected member)
  exact ⟨alikeInExpr, value, (evaluated _ _ alikeInExpr).1 ▸ value, alikeInOutput,
    output _ _ alikeInOutput⟩

end Projection

end WideRow
