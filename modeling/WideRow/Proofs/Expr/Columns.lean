import WideRow.Expr.Columns
import WideRow.Proofs.Expr.Evaluate
import WideRow.Proofs.Value.Codec

/-!
# What an expression reads

The columns that are collected from an expression are the column nodes of its tree
(`Expr.mem_referencedColumns`), and they are all that its value depends on (`Expr.evaluate_congr`).  A
column that a row lacks or that holds a stored value is read as that value
(`Column.read_of_storedIn`).
-/

namespace WideRow

namespace Expr

/-! ### Columns in the tree -/

theorem within_column {part : Expr} {c : Column} : Within part (column c) ↔ part = column c := by
  constructor
  · intro inside
    cases inside
    rfl
  · intro same
    rw [same]
    exact .self

theorem column_within_literal {c : Column} {value : Value} {type : Option DataType} :
    ¬ Within (column c) (literal value type) := by
  intro inside
  cases inside

theorem column_within_arithmetic {c : Column} {op : ArithmeticOp} {operands : List Expr} :
    Within (column c) (arithmetic op operands) ↔
      ∃ operand ∈ operands, Within (column c) operand := by
  constructor
  · intro inside
    cases inside with
    | operand member inside => exact ⟨_, member, inside⟩
  · intro ⟨operand, member, inside⟩
    exact .operand member inside

theorem column_within_comparison {c : Column} {op : CompareOp} {left right : Expr} :
    Within (column c) (comparison op left right) ↔
      Within (column c) left ∨ Within (column c) right := by
  constructor
  · intro inside
    cases inside with
    | left inside => exact .inl inside
    | right inside => exact .inr inside
  · intro inside
    cases inside with
    | inl inside => exact .left inside
    | inr inside => exact .right inside

/-! ### Collecting columns -/

theorem mem_addNew {c other : Column} {seen : List Column} :
    c ∈ Column.addNew seen other ↔ c ∈ seen ∨ c = other := by
  simp only [Column.addNew]
  split
  · rename_i member
    constructor
    · exact .inl
    · intro known
      rcases known with known | same
      · exact known
      · exact same ▸ member
  · rw [List.mem_append, List.mem_singleton]

theorem collectColumns_literal (value : Value) (type : Option DataType) (seen : List Column) :
    (literal value type).collectColumns seen = seen := rfl

theorem collectColumns_column (c : Column) (seen : List Column) :
    (column c).collectColumns seen = Column.addNew seen c := rfl

theorem acceptAll_collector (operands : List Expr) (seen : List Column) :
    (acceptAll collector operands seen).2 = operands.foldl collectColumns seen := by
  induction operands generalizing seen with
  | nil => rfl
  | cons e rest ih =>
    rw [List.foldl_cons, ← ih, acceptAll]
    rfl

theorem collectColumns_arithmetic (op : ArithmeticOp) (operands : List Expr) (seen : List Column) :
    (arithmetic op operands).collectColumns seen = operands.foldl collectColumns seen := by
  rw [← acceptAll_collector, collectColumns, accept]
  rfl

theorem collectColumns_comparison (op : CompareOp) (left right : Expr) (seen : List Column) :
    (comparison op left right).collectColumns seen =
      right.collectColumns (left.collectColumns seen) := by
  rw [collectColumns, accept]
  rfl

theorem mem_foldl_collectColumns {c : Column} {operands : List Expr}
    (each : ∀ operand ∈ operands, ∀ seen, c ∈ operand.collectColumns seen ↔
      c ∈ seen ∨ Within (column c) operand) (seen : List Column) :
    c ∈ operands.foldl collectColumns seen ↔
      c ∈ seen ∨ ∃ operand ∈ operands, Within (column c) operand := by
  induction operands generalizing seen with
  | nil => simp only [List.foldl_nil, List.not_mem_nil, false_and, exists_false, or_false]
  | cons e rest ih =>
    have others := ih (fun operand member => each operand (List.mem_cons_of_mem _ member))
      (e.collectColumns seen)
    rw [List.foldl_cons, others, each e List.mem_cons_self, or_assoc]
    simp only [List.mem_cons, exists_eq_or_imp]

theorem mem_collectColumns {c : Column} (e : Expr) (seen : List Column) :
    c ∈ e.collectColumns seen ↔ c ∈ seen ∨ Within (column c) e := by
  induction e generalizing seen with
  | literal value type =>
    rw [collectColumns_literal, or_iff_left column_within_literal]
  | column other =>
    rw [collectColumns_column, mem_addNew, within_column, column.injEq]
  | arithmetic op operands ih =>
    rw [collectColumns_arithmetic, mem_foldl_collectColumns ih, column_within_arithmetic]
  | comparison op left right ihLeft ihRight =>
    rw [collectColumns_comparison, ihRight, ihLeft, column_within_comparison, or_assoc]

/-- The columns that an expression is said to read are the columns in its tree. -/
theorem mem_referencedColumns {c : Column} {e : Expr} :
    c ∈ e.referencedColumns ↔ Within (column c) e := by
  rw [referencedColumns, mem_collectColumns, or_iff_right List.not_mem_nil]

/-! ### Rows that agree -/

theorem evaluateAll_congr {operands : List Expr} {row other : Row}
    (each : ∀ operand ∈ operands, operand.evaluate row = operand.evaluate other) :
    evaluateAll row operands = evaluateAll other operands := by
  induction operands with
  | nil => rfl
  | cons e rest ih =>
    rw [evaluateAll, evaluateAll, each e List.mem_cons_self,
      ih fun operand member => each operand (List.mem_cons_of_mem _ member)]

/-- An expression depends on a row through the columns in its tree only. -/
theorem evaluate_congr {e : Expr} {row other : Row}
    (same : ∀ c, Within (column c) e → row.columnValue c.family c.qualifier =
      other.columnValue c.family c.qualifier) :
    e.evaluate row = e.evaluate other := by
  induction e with
  | literal value type => rw [evaluate_literal, evaluate_literal]
  | column c => rw [evaluate_column, evaluate_column, Column.read, Column.read, same c .self]
  | arithmetic op operands ih =>
    have each : ∀ operand ∈ operands, operand.evaluate row = operand.evaluate other :=
      fun operand member => ih operand member fun c inside => same c (.operand member inside)
    have typed := type?_arithmetic op operands
    rw [evaluate_arithmetic typed, evaluate_arithmetic typed, evaluateAll_congr each]
  | comparison op left right ihLeft ihRight =>
    rw [evaluate_comparison, evaluate_comparison, ihLeft fun c inside => same c (.left inside),
      ihRight fun c inside => same c (.right inside)]

end Expr

/-! ### Stored columns -/

/-- The row lacks the column, or holds in it the bytes of some value of its type. -/
def Column.StoredIn (column : Column) (row : Row) : Prop :=
  ∀ bytes, row.columnValue column.family column.qualifier = .ok (some bytes) →
    ∃ value : Value, value.encode column.type = .ok bytes

theorem Column.read_eq_ok {column : Column} {row : Row} {value : Value}
    (answer : column.read row = .ok value) :
    (row.columnValue column.family column.qualifier = .ok none ∧ value = .null) ∨
      ∃ bytes, row.columnValue column.family column.qualifier = .ok (some bytes) ∧
        Value.decode bytes column.type = .ok value := by
  obtain ⟨found, looked, answer⟩ := Fallible.bind_eq_ok.mp answer
  have looked := Fallible.ofRecord_eq_ok.mp looked
  cases found with
  | none =>
    injection answer with same
    exact .inl ⟨looked, same.symm⟩
  | some bytes => exact .inr ⟨bytes, looked, answer⟩

theorem Column.read_of_storedIn {column : Column} {row : Row} (stored : column.StoredIn row)
    {value : Value} (answer : column.read row = .ok value) :
    (row.columnValue column.family column.qualifier = .ok none ∧ value = .null) ∨
      ∃ bytes held, row.columnValue column.family column.qualifier = .ok (some bytes) ∧
        Value.Held held column.type ∧ Value.encodeCast column.type held = some bytes ∧
        value = held.stored := by
  rcases read_eq_ok answer with absent | ⟨bytes, looked, decoded⟩
  · exact .inl absent
  · obtain ⟨written, encoded⟩ := stored bytes looked
    obtain ⟨held, _, kept, bytesOf, back⟩ := Value.decode_encode encoded
    rw [back] at decoded
    injection decoded with same
    exact .inr ⟨bytes, held, looked, kept, bytesOf, same.symm⟩

end WideRow
