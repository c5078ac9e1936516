import WideRow.Filter.Pushdown
import WideRow.Proofs.Expr.Columns

/-!
# Pushed comparisons keep their meaning

A comparison of a column with a literal is pushed to the store as a comparison of bytes.  The literal is
replaced by its value at the type of the column, which changes no comparison with a stored value
(`Pushdown.compare?_exactValue`); and the bytes of two values of the type are ordered like the values.
So the filter accepts the rows on which the comparison holds, and no others
(`Pushdown.accepts_of_evaluatePredicate`).
-/

namespace WideRow

open Fallible

namespace Pushdown

theorem exactValue?_eq_some {value held : Value} {type : DataType}
    (exact_ : exactValue? value type = some held) :
    isComparable value = true ∧ keepsOrder type = true ∧ value.cast type = .ok held ∧
      held.compare? value = some .eq := by
  simp only [exactValue?] at exact_
  split at exact_
  · rename_i suitable
    split at exact_
    · rename_i cast answer
      split at exact_
      · rename_i equal
        injection exact_ with same
        rw [← same]
        rw [Bool.and_eq_true] at suitable
        exact ⟨suitable.1, suitable.2, answer, equal⟩
      · cases exact_
    · cases exact_
  · cases exact_

theorem isNull_of_isComparable {value : Value} (comparable : isComparable value = true) :
    value.isNull = false := by
  cases value with
  | null => cases comparable
  | integer n => rfl
  | float x => rfl
  | decimal u s => rfl
  | text s => rfl
  | boolean b => rfl

/-! ### Replacing the literal -/

/-- The whole part of a decimal is less than one away from it. -/
theorem whole_near {u : Unscaled} {s : Nat} {whole : Int} (answer : Value.wholePart u s = .ok whole) :
    whole * Decimal.tenTo s - u.val < Decimal.tenTo s ∧
      u.val - whole * Decimal.tenTo s < Decimal.tenTo s := by
  obtain ⟨divisor, factor, same⟩ := bind_eq_ok.mp answer
  injection same with same
  have divides := (Decimal.tenTo?_eq_some.mp (orOverflow_eq_ok.mp factor)).2
  have positive : (0 : Int) < Decimal.tenTo s := Int.ofNat_lt.mpr (Decimal.tenTo_pos s)
  rw [divides] at same
  have split := Int.mul_tdiv_add_tmod u.val (Decimal.tenTo s)
  rw [Int.mul_comm, same] at split
  have above := Int.tmod_lt_of_pos u.val positive
  have below := Int.lt_tmod_of_pos u.val positive
  omega

theorem compare?_whole {n : Signed 64} {u : Unscaled} {s bits : Nat} {held : Value}
    (answer : (do Value.toInteger bits (← Value.wholePart u s)) = .ok held)
    (equal : held.compare? (.decimal u s) = some .eq)
    (aligned : (Value.integer n).Aligns (.decimal u s)) :
    (Value.integer n).compare? (.decimal u s) = (Value.integer n).compare? held := by
  obtain ⟨whole, found, cast⟩ := bind_eq_ok.mp answer
  obtain ⟨m, kept, level, _⟩ := Value.toInteger_eq_ok cast
  have near := whole_near found
  rw [← level] at near
  rw [kept] at equal ⊢
  have fits := (aligned n.widen 0 u s rfl rfl).1
  rw [Nat.zero_max] at fits
  exact Decimal.compare?_coarse (q := m.widen) (Nat.zero_le s) near equal fits

theorem compare?_cast_decimal {p : Unscaled} {scale : Nat} {precision declared : Option Nat}
    {value held : Value} (comparable : isComparable value = true)
    (ordered : keepsOrder (.decimal precision declared) = true)
    (place : ∀ target, declared = some target → scale = min target Decimal.maxDigits)
    (answer : value.cast (.decimal precision declared) = .ok held)
    (equal : held.compare? value = some .eq) (aligned : (Value.decimal p scale).Aligns value) :
    (Value.decimal p scale).compare? value = (Value.decimal p scale).compare? held := by
  cases declared with
  | none => cases ordered
  | some target =>
    have level : min target Decimal.maxDigits = scale := (place target rfl).symm
    cases value with
    | null => cases comparable
    | integer k =>
      obtain ⟨q, same, rounded, _⟩ := Value.toDecimal_eq_ok answer
      rw [Option.getD_some, level] at same rounded
      rw [same] at equal ⊢
      exact Decimal.compare?_rounded rounded equal (aligned p scale k.widen 0 rfl rfl).1
    | decimal u s =>
      obtain ⟨q, same, rounded, _⟩ := Value.toDecimal_eq_ok answer
      rw [Option.getD_some, level] at same rounded
      rw [same] at equal ⊢
      exact Decimal.compare?_rounded rounded equal (aligned p scale u s rfl rfl).1
    | float x => cases answer
    | text s => cases answer
    | boolean b => cases answer

theorem compare?_cast_double {x : Binary64} {value held : Value}
    (comparable : isComparable value = true) (answer : value.cast .double = .ok held) :
    (Value.float x).compare? value = (Value.float x).compare? held := by
  cases value with
  | null => cases comparable
  | integer k =>
    injection answer with same
    rw [← same]
    rfl
  | decimal u s =>
    injection answer with same
    rw [← same]
    rfl
  | float y =>
    injection answer with same
    rw [same]
  | text s => cases answer
  | boolean b => cases answer

/-- A stored value compares with the literal as it does with the literal at the type of the column. -/
theorem compare?_exactValue {value held first : Value} {type : DataType}
    (exact_ : exactValue? value type = some held) (typed : Value.Held first type)
    (aligned : first.Aligns value) : first.compare? value = first.compare? held := by
  obtain ⟨comparable, ordered, answer, equal⟩ := exactValue?_eq_some exact_
  cases typed with
  | integer n low high =>
    cases value with
    | null => cases comparable
    | integer k =>
      obtain ⟨m, kept, level, _⟩ := Value.toInteger_eq_ok answer
      rw [kept]
      show some (compare n.val k.val) = some (compare n.val m.val)
      rw [level]
    | decimal u s => exact compare?_whole answer equal aligned
    | float x => cases answer
    | text s => cases answer
    | boolean b => cases answer
  | bigInt n =>
    cases value with
    | null => cases comparable
    | integer k =>
      injection answer with same
      rw [same]
    | decimal u s => exact compare?_whole answer equal aligned
    | float x => cases answer
    | text s => cases answer
    | boolean b => cases answer
  | decimal p small place digits =>
    exact compare?_cast_decimal comparable ordered place answer equal aligned
  | double x => exact compare?_cast_double comparable answer
  | varchar s =>
    cases value with
    | text t =>
      injection answer with same
      rw [same]
    | null => cases comparable
    | integer k => cases answer
    | decimal u s => cases answer
    | float x => cases answer
    | boolean b => cases answer
  | boolean b =>
    cases value with
    | boolean c =>
      injection answer with same
      rw [same]
    | null => cases comparable
    | integer k => cases answer
    | decimal u s => cases answer
    | float x => cases answer
    | text s => cases answer

/-! ### The filter of a comparison -/

theorem columnFilter?_eq_some {column : Column} {op : CompareOp} {value : Value}
    {filter : ColumnFilter} (made : columnFilter? column op value = some filter) :
    ∃ held bytes, exactValue? value column.type = some held ∧ Value.Held held column.type ∧
      Value.encodeCast column.type held = some bytes ∧
      filter = ⟨column.family, column.qualifier, op, bytes, true⟩ := by
  obtain ⟨held, exact_, made⟩ := Option.bind_eq_some_iff.mp made
  split at made
  · rename_i bytes encoded
    injection made with same
    obtain ⟨cast, answer, kept, written⟩ := Value.encode_eq_ok encoded
    obtain ⟨_, _, first, _⟩ := exactValue?_eq_some exact_
    have unchanged : cast = held := by
      rcases Value.held_of_cast first with missing | before
      · rw [missing] at answer
        injection answer with same
        rw [missing, same]
      · rw [Value.cast_of_held before] at answer
        injection answer with same
        exact same.symm
    rw [unchanged] at kept written
    exact ⟨held, bytes, exact_, kept, written, same.symm⟩
  · cases made

/-- A comparison of a stored column with a literal that answers is answered alike by the filter. -/
theorem accepts_columnFilter {column : Column} {op : CompareOp} {value : Value}
    {filter : ColumnFilter} (made : columnFilter? column op value = some filter) {row : Row}
    (stored : column.StoredIn row) {first result : Value} (read : column.read row = .ok first)
    (aligned : first.Aligns value) (answer : op.evaluate first value = .ok result) :
    (result = .null ∧ filter.accepts row = .ok false) ∨
      ∃ b, result = .boolean b ∧ filter.accepts row = .ok b := by
  obtain ⟨literal, bytes, exact_, kept, written, same⟩ := columnFilter?_eq_some made
  obtain ⟨comparable, ordered, _, equal⟩ := exactValue?_eq_some exact_
  have present := isNull_of_isComparable comparable
  rw [same]
  rcases Column.read_of_storedIn stored read with
    ⟨absent, missing⟩ | ⟨found, held, looked, typed, storedBytes, back⟩
  · refine .inl ⟨?_, ?_⟩
    · rw [missing] at answer
      injection answer with same
      exact same.symm
    · simp only [ColumnFilter.accepts, absent]
      rfl
  · rw [back] at aligned answer
    have literalPresent := kept.hasType.isNull
    obtain ⟨o, compared, result⟩ :=
      (CompareOp.evaluate_eq_ok typed.stored.hasType.isNull present).mp answer
    -- the literal at the type of the column takes the place of the literal
    rw [compare?_exactValue exact_ typed.stored aligned, Value.compare?_stored] at compared
    have number := Value.isNaN_of_compare?_eq_some compared literalPresent
    have literalNumber := Value.isNaN_of_compare?_eq_some equal present
    have declared : ∀ precision, column.type ≠ .decimal precision none := by
      intro precision open_
      rw [open_] at ordered
      cases ordered
    rw [Value.compare_encodeCast typed kept declared number literalNumber storedBytes written]
      at compared
    injection compared with compared
    refine .inr ⟨op.admits o, result, ?_⟩
    simp only [ColumnFilter.accepts, looked]
    rw [← compared]
    rfl

/-- An expression compares a column with a literal, on either side. -/
inductive Compares (column : Column) (literal : Value) : Expr → Prop
  | left (op : CompareOp) (type : Option DataType) :
      Compares column literal (.comparison op (.column column) (.literal literal type))
  | right (op : CompareOp) (type : Option DataType) :
      Compares column literal (.comparison op (.literal literal type) (.column column))

theorem compile?_eq_some {e : Expr} {filter : ColumnFilter} (compiled : compile? e = some filter) :
    (∃ op column value type, e = .comparison op (.column column) (.literal value type) ∧
      columnFilter? column op value = some filter) ∨
    ∃ op column value type, e = .comparison op (.literal value type) (.column column) ∧
      columnFilter? column op.mirror value = some filter := by
  simp only [compile?] at compiled
  split at compiled
  · exact .inl ⟨_, _, _, _, rfl, compiled⟩
  · exact .inr ⟨_, _, _, _, rfl, compiled⟩
  · cases compiled

/-- The answer of a comparison as a predicate and the answer of its filter. -/
theorem accepts_of_result {e : Expr} {filter : ColumnFilter} {row : Row} {b : Bool}
    (holds : e.evaluatePredicate row = .ok b)
    (agrees : ∀ result, e.evaluate row = .ok result →
      (result = .null ∧ filter.accepts row = .ok false) ∨
        ∃ c, result = .boolean c ∧ filter.accepts row = .ok c) :
    filter.accepts row = .ok b := by
  rcases Expr.evaluatePredicate_eq_ok.mp holds with boolean | ⟨missing, same⟩
  · rcases agrees _ boolean with ⟨null, _⟩ | ⟨c, same, accepts⟩
    · cases null
    · injection same with same
      rw [same]
      exact accepts
  · rcases agrees _ missing with ⟨_, accepts⟩ | ⟨c, null, _⟩
    · rw [same]
      exact accepts
    · cases null

/-- **Pushing a comparison to the store keeps its meaning.**  An expression that becomes a filter compares
a column with a literal.  On every row that lacks the column or holds a stored value in it, the filter
answers what the expression answers as a predicate, if the value and the literal align or are not both
exact numbers. -/
theorem accepts_of_evaluatePredicate {e : Expr} {filter : ColumnFilter}
    (compiled : compile? e = some filter) :
    ∃ column literal, Compares column literal e ∧
      filter.family = column.family ∧ filter.qualifier = column.qualifier ∧
      ∀ row, column.StoredIn row →
        (∀ first, column.read row = .ok first → first.Aligns literal) →
        ∀ b, e.evaluatePredicate row = .ok b → filter.accepts row = .ok b := by
  rcases compile?_eq_some compiled with
    ⟨op, column, value, type, same, made⟩ | ⟨op, column, value, type, same, made⟩
  · obtain ⟨_, _, _, _, _, parts⟩ := columnFilter?_eq_some made
    refine ⟨column, value, same ▸ .left op type, by rw [parts], by rw [parts], ?_⟩
    intro row stored aligned b holds
    refine accepts_of_result holds ?_
    intro result answer
    rw [same, Expr.evaluate_comparison, Expr.evaluate_column, Expr.evaluate_literal] at answer
    obtain ⟨first, read, compared⟩ := bind_eq_ok.mp answer
    exact accepts_columnFilter made stored read (aligned first read) compared
  · obtain ⟨_, _, _, _, _, parts⟩ := columnFilter?_eq_some made
    refine ⟨column, value, same ▸ .right op type, by rw [parts], by rw [parts], ?_⟩
    intro row stored aligned b holds
    refine accepts_of_result holds ?_
    intro result answer
    rw [same, Expr.evaluate_comparison, Expr.evaluate_column, Expr.evaluate_literal] at answer
    obtain ⟨literal, known, answer⟩ := bind_eq_ok.mp answer
    obtain ⟨first, read, compared⟩ := bind_eq_ok.mp answer
    injection known with known
    rw [← known] at compared
    exact accepts_columnFilter made stored read (aligned first read)
      (CompareOp.evaluate_mirror compared)

/-- A row of one cell, with the integer one in the column `f:q`. -/
def oneRow : Row :=
  ⟨Span.whole [114], .cells [⟨[], 0, ⟨[114], [102], [113], Signed.zero 64, 4, [128, 0, 0, 1]⟩⟩]⟩

/-- The literal `2.0` before the column `f:q`, and greater than it. -/
def belowTwo : Expr :=
  .comparison .greater (.literal (.decimal ⟨20, by decide, by decide⟩ 1) none)
    (.column ⟨[102], [113], .integer⟩)

theorem findIn_singleton {placed : PlacedCell} {term : SearchTerm}
    (notBefore : placed.cell.orderToTerm term ≠ .lt)
    (inColumn : placed.cell.inColumn term.family term.qualifier = true) :
    Row.findIn [placed] term = some placed := by
  have narrow : ∀ isAfter, Search.narrow isAfter 0 1 = 0 := by
    intro isAfter
    rw [Search.narrow]
    rfl
  have here : Search.position (fun placed => Cell.orderToTerm placed.cell term) [placed] = 0 := by
    simp only [Search.position, List.length_singleton, narrow]
    exact if_neg notBefore
  rw [Row.findIn, here]
  exact if_pos inColumn

theorem columnValue_oneRow : oneRow.columnValue [102] [113] = .ok (some [128, 0, 0, 1]) := by
  unfold Row.columnValue Row.lookup Row.find
  show (do let found ← Except.ok (Row.findIn [_] _); return found.map _) = _
  rw [findIn_singleton (by decide) (by decide)]
  rfl

theorem accepts_of_evaluatePredicate_belowTwo :
    compile? belowTwo = some ⟨[102], [113], .less, [128, 0, 0, 2], true⟩ ∧
      belowTwo.evaluatePredicate oneRow = .ok true ∧
      ColumnFilter.accepts ⟨[102], [113], .less, [128, 0, 0, 2], true⟩ oneRow = .ok true := by
  have compiled : compile? belowTwo = some ⟨[102], [113], .less, [128, 0, 0, 2], true⟩ := by
    decide +kernel
  have read : Column.read ⟨[102], [113], .integer⟩ oneRow =
      .ok (.integer ⟨1, by decide, by decide⟩) := by
    have decoded : Value.decode [128, 0, 0, 1] .integer =
        .ok (.integer ⟨1, by decide, by decide⟩) :=
      Value.decode_encodeCast (.integer _ (by decide) (by decide)) (by decide +kernel)
    rw [Column.read, columnValue_oneRow]
    exact decoded
  have holds : belowTwo.evaluatePredicate oneRow = .ok true := by
    refine Expr.evaluatePredicate_eq_ok.mpr (.inl ?_)
    rw [belowTwo, Expr.evaluate_comparison, Expr.evaluate_literal, Expr.evaluate_column, read]
    have ordered : Value.compare? (.decimal ⟨20, by decide, by decide⟩ 1)
        (.integer ⟨1, by decide, by decide⟩) = some .gt := by
      decide +kernel
    exact (CompareOp.evaluate_eq_ok rfl rfl).mpr ⟨.gt, ordered, rfl⟩
  refine ⟨compiled, holds, ?_⟩
  obtain ⟨column, literal, compares, _, _, agrees⟩ := accepts_of_evaluatePredicate compiled
  cases compares with
  | right op type =>
    refine agrees oneRow ?_ ?_ true holds
    · intro bytes looked
      rw [columnValue_oneRow] at looked
      injection looked with looked
      injection looked with looked
      rw [← looked]
      exact ⟨.integer ⟨1, by decide, by decide⟩, rfl⟩
    · intro first found
      rw [read] at found
      injection found with same
      rw [← same]
      intro a s b t left right
      cases left
      cases right
      decide +kernel

end Pushdown

end WideRow
