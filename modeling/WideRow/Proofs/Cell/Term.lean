import WideRow.Proofs.Cell.Order

/-!
# Cells and search terms

The store order goes by five components, and the first in which two cells differ decides (`Cell.Before`).
A search term is compared like a cell that stands for it (`Cell.StandsFor`).  No cell of its column can
be newer or of a greater type, so the term is before the whole column.

* `Cell.order_eq_lt` : which cell comes first;
* `Cell.orderToTerm_eq_eq`, `Cell.orderToTerm_eq_gt` : a cell of the term's own column;
* `Cell.order_supports_search` : the store order and the terms that are searched for in it.
-/

namespace WideRow

namespace Cell

/-! ### Which cell comes first -/

/-- One cell is before another: by the first component in which they differ. -/
inductive Before (a b : Cell) : Prop
  | row (less : compare a.row b.row = .lt)
  | family (row : a.row = b.row) (less : compare a.family b.family = .lt)
  | qualifier (row : a.row = b.row) (family : a.family = b.family)
      (less : compare a.qualifier b.qualifier = .lt)
  | timestamp (row : a.row = b.row) (family : a.family = b.family)
      (qualifier : a.qualifier = b.qualifier) (newer : b.timestamp.val < a.timestamp.val)
  | typeCode (row : a.row = b.row) (family : a.family = b.family)
      (qualifier : a.qualifier = b.qualifier) (timestamp : a.timestamp = b.timestamp)
      (greater : b.typeCode < a.typeCode)

theorem order_eq_lt {a b : Cell} : order a b = .lt ↔ a.Before b := by
  have timestamps : compare b.timestamp.val a.timestamp.val = .eq ↔ a.timestamp = b.timestamp := by
    rw [Int.compare_eq_eq]
    exact ⟨fun same => Signed.eq_of_val same.symm, fun same => congrArg Signed.val same.symm⟩
  have types : compare b.typeCode.toNat a.typeCode.toNat = .lt ↔ b.typeCode < a.typeCode := by
    rw [Nat.compare_eq_lt, UInt8.lt_iff_toNat_lt]
  rw [order, Ordering.then_eq_lt, Ordering.then_eq_lt, Ordering.then_eq_lt, Ordering.then_eq_lt,
    timestamps, types, Int.compare_eq_lt, Std.compare_eq_iff_eq, Std.compare_eq_iff_eq,
    Std.compare_eq_iff_eq]
  constructor
  · rintro (less | ⟨row, less | ⟨family, less | ⟨qualifier, newer | ⟨timestamp, greater⟩⟩⟩⟩)
    · exact .row less
    · exact .family row less
    · exact .qualifier row family less
    · exact .timestamp row family qualifier newer
    · exact .typeCode row family qualifier timestamp greater
  · intro before
    cases before with
    | row less => exact .inl less
    | family row less => exact .inr ⟨row, .inl less⟩
    | qualifier row family less => exact .inr ⟨row, .inr ⟨family, .inl less⟩⟩
    | timestamp row family qualifier newer =>
      exact .inr ⟨row, .inr ⟨family, .inr ⟨qualifier, .inl newer⟩⟩⟩
    | typeCode row family qualifier timestamp greater =>
      exact .inr ⟨row, .inr ⟨family, .inr ⟨qualifier, .inr ⟨timestamp, greater⟩⟩⟩⟩

/-- The order of two cells of one column of one row is that of their versions. -/
theorem order_of_column {a b : Cell} (row : a.row = b.row) (family : a.family = b.family)
    (qualifier : a.qualifier = b.qualifier) :
    order a b = (compare b.timestamp.val a.timestamp.val).then
      (compare b.typeCode.toNat a.typeCode.toNat) := by
  rw [order, row, family, qualifier, Std.compare_self, Std.compare_self, Std.compare_self]
  rfl

theorem inColumn_iff {cell : Cell} {family qualifier : Bytes} :
    cell.inColumn family qualifier = true ↔ cell.family = family ∧ cell.qualifier = qualifier := by
  rw [inColumn, Bool.and_eq_true, beq_iff_eq, beq_iff_eq]

/-! ### The search term among cells -/

/-- The cell stands where the term does: in its row and column, at the greatest timestamp and with the
greatest type. -/
structure StandsFor (cell : Cell) (term : SearchTerm) : Prop where
  row : cell.row = term.row
  family : cell.family = term.family
  qualifier : cell.qualifier = term.qualifier
  timestamp : cell.timestamp.val = 2 ^ 63 - 1
  typeCode : cell.typeCode = 255

theorem standsFor_firstCell (term : SearchTerm) : term.firstCell.StandsFor term :=
  ⟨rfl, rfl, rfl, rfl, rfl⟩

/-- A term is compared like any cell that stands for it. -/
theorem StandsFor.orderToTerm_eq {first : Cell} {term : SearchTerm} (stands : first.StandsFor term)
    (cell : Cell) : orderToTerm cell term = order cell first := by
  rw [orderToTerm, order, stands.row, stands.family, stands.qualifier, stands.timestamp,
    stands.typeCode]
  rfl

theorem orderToTerm_eq_eq {cell : Cell} {term : SearchTerm} :
    orderToTerm cell term = .eq ↔ cell.StandsFor term := by
  rw [orderToTerm_eq_order, order_eq_eq]
  constructor
  · rintro ⟨row, family, qualifier, timestamp, typeCode⟩
    refine ⟨row, family, qualifier, ?_, typeCode⟩
    rw [timestamp]
    rfl
  · rintro ⟨row, family, qualifier, timestamp, typeCode⟩
    refine ⟨row, family, qualifier, Signed.eq_of_val ?_, typeCode⟩
    rw [timestamp]
    rfl

/-- No version of the term's column sorts before the term. -/
theorem orderToTerm_ne_lt {cell : Cell} {term : SearchTerm} (row : cell.row = term.row)
    (family : cell.family = term.family) (qualifier : cell.qualifier = term.qualifier) :
    orderToTerm cell term ≠ .lt := by
  have timestamp : compare term.firstCell.timestamp.val cell.timestamp.val ≠ .lt := by
    rw [Ne, Int.compare_eq_lt]
    exact Int.not_lt.mpr (Int.le_sub_one_of_lt cell.timestamp.high)
  have typeCode : compare term.firstCell.typeCode.toNat cell.typeCode.toNat ≠ .lt := by
    rw [Ne, Nat.compare_eq_lt]
    exact Nat.not_lt.mpr (Nat.le_of_lt_succ cell.typeCode.toNat_lt)
  rw [orderToTerm_eq_order, order_of_column row family qualifier, Ne, Ordering.then_eq_lt]
  rintro (less | ⟨_, less⟩)
  · exact timestamp less
  · exact typeCode less

/-- Every version of the term's column but the one that stands for the term sorts after it. -/
theorem orderToTerm_eq_gt {cell : Cell} {term : SearchTerm} (row : cell.row = term.row)
    (inColumn : cell.inColumn term.family term.qualifier = true) :
    orderToTerm cell term = .gt ↔ ¬ (cell.timestamp.val = 2 ^ 63 - 1 ∧ cell.typeCode = 255) := by
  obtain ⟨family, qualifier⟩ := inColumn_iff.mp inColumn
  have notBefore := orderToTerm_ne_lt row family qualifier
  have stands : orderToTerm cell term = .eq ↔
      cell.timestamp.val = 2 ^ 63 - 1 ∧ cell.typeCode = 255 := by
    rw [orderToTerm_eq_eq]
    exact ⟨fun stands => ⟨stands.timestamp, stands.typeCode⟩,
      fun ⟨timestamp, typeCode⟩ => ⟨row, family, qualifier, timestamp, typeCode⟩⟩
  rw [← stands]
  cases order : orderToTerm cell term with
  | lt => exact absurd order notBefore
  | eq => simp only [reduceCtorEq, not_true_eq_false]
  | gt => simp only [reduceCtorEq, not_false_eq_true]

theorem then_between {o p q : Ordering} (low : o.then p ≠ .lt) (high : o.then q ≠ .gt) :
    o = .eq ∧ p ≠ .lt ∧ q ≠ .gt := by
  cases o with
  | lt => exact absurd rfl low
  | eq => exact ⟨rfl, low, high⟩
  | gt => exact absurd rfl high

/-- What sorts between a term and a version of its column is itself a version of the column. -/
theorem column_of_between {cell version : Cell} {term : SearchTerm} (row : version.row = term.row)
    (family : version.family = term.family) (qualifier : version.qualifier = term.qualifier)
    (low : orderToTerm cell term ≠ .lt) (high : order cell version ≠ .gt) :
    cell.row = term.row ∧ cell.family = term.family ∧ cell.qualifier = term.qualifier := by
  rw [order, row, family, qualifier] at high
  obtain ⟨sameRow, low, high⟩ := then_between low high
  obtain ⟨sameFamily, low, high⟩ := then_between low high
  obtain ⟨sameQualifier, _, _⟩ := then_between low high
  exact ⟨Std.LawfulEqOrd.eq_of_compare sameRow, Std.LawfulEqOrd.eq_of_compare sameFamily,
    Std.LawfulEqOrd.eq_of_compare sameQualifier⟩

/-- Along the store order the cells before a term come first and those after it last. -/
theorem orderToTerm_ascends {a b : Cell} (notAfter : order a b ≠ .gt) (term : SearchTerm) :
    (orderToTerm a term = .gt → orderToTerm b term = .gt) ∧
      (orderToTerm b term = .lt → orderToTerm a term = .lt) := by
  have le : (order a b).isLE = true := Ordering.isLE_iff_ne_gt.mpr notAfter
  rw [orderToTerm_eq_order, orderToTerm_eq_order]
  constructor
  · intro greater
    have less := Std.OrientedCmp.gt_iff_lt.mp greater
    exact Std.OrientedCmp.gt_iff_lt.mpr (Std.TransCmp.lt_of_lt_of_isLE less le)
  · intro less
    exact Std.TransCmp.lt_of_isLE_of_lt le less

theorem order_trans {a b c : Cell} (first : order a b ≠ .gt) (second : order b c ≠ .gt) :
    order a c ≠ .gt := by
  rw [Ne, ← Ordering.isLE_iff_ne_gt] at *
  exact Std.TransCmp.isLE_trans first second

/-- **The store order supports binary search.**  It is a total preorder of all cells: a cell is level with
itself, turning a comparison around turns its outcome around, and what is not after what is not after a
third cell is not after that one.  The first component in which two cells differ decides, and they are
level exactly if they differ in none.  A search term is compared like any cell of its row and column that
has the greatest timestamp and type, of which there are some.  Along the order no cell is before a term
that an earlier cell is not before.  A cell of the term's own column is after the term, unless it has the
greatest timestamp and type itself, and then it is level with it. -/
theorem order_supports_search :
    (∀ a : Cell, order a a = .eq) ∧
    (∀ a b : Cell, order b a = (order a b).swap) ∧
    (∀ a b c : Cell, order a b ≠ .gt → order b c ≠ .gt → order a c ≠ .gt) ∧
    (∀ a b : Cell, order a b = .lt ↔ a.Before b) ∧
    (∀ a b : Cell, order a b = .eq ↔ a.row = b.row ∧ a.family = b.family ∧
      a.qualifier = b.qualifier ∧ a.timestamp = b.timestamp ∧ a.typeCode = b.typeCode) ∧
    ∀ term : SearchTerm,
      (∃ first : Cell, first.StandsFor term) ∧
      (∀ first : Cell, first.StandsFor term → ∀ cell, orderToTerm cell term = order cell first) ∧
      (∀ a b : Cell, order a b ≠ .gt → orderToTerm a term ≠ .lt → orderToTerm b term ≠ .lt) ∧
      ∀ cell : Cell, cell.row = term.row → cell.inColumn term.family term.qualifier = true →
        (orderToTerm cell term = .gt ↔
          ¬ (cell.timestamp.val = 2 ^ 63 - 1 ∧ cell.typeCode = 255)) ∧
        (orderToTerm cell term = .eq ↔ cell.timestamp.val = 2 ^ 63 - 1 ∧ cell.typeCode = 255) := by
  refine ⟨fun a => Std.ReflCmp.compare_self, fun a b => Std.OrientedCmp.eq_swap,
    fun a b c => order_trans, fun a b => order_eq_lt, fun a b => order_eq_eq, fun term => ?_⟩
  refine ⟨⟨_, standsFor_firstCell term⟩, fun first => StandsFor.orderToTerm_eq, ?_, ?_⟩
  · intro a b notAfter notBefore before
    exact notBefore ((orderToTerm_ascends notAfter term).2 before)
  · intro cell row inColumn
    obtain ⟨family, qualifier⟩ := inColumn_iff.mp inColumn
    refine ⟨orderToTerm_eq_gt row inColumn, orderToTerm_eq_eq.trans ?_⟩
    exact ⟨fun stands => ⟨stands.timestamp, stands.typeCode⟩,
      fun ⟨timestamp, typeCode⟩ => ⟨row, family, qualifier, timestamp, typeCode⟩⟩

/-- The newest version that a column can have and an older one, against the term of the column. -/
theorem order_supports_search_versions :
    order ⟨[114], [102], [113], Signed.greatest 64, 255, []⟩
      ⟨[114], [102], [113], Signed.wrap 64 (-1), 4, [1]⟩ ≠ .gt ∧
    orderToTerm ⟨[114], [102], [113], Signed.greatest 64, 255, []⟩ ⟨[114], [102], [113]⟩ = .eq ∧
    orderToTerm ⟨[114], [102], [113], Signed.wrap 64 (-1), 4, [1]⟩ ⟨[114], [102], [113]⟩ ≠ .lt ∧
    orderToTerm ⟨[114], [102], [113], Signed.wrap 64 (-1), 4, [1]⟩ ⟨[114], [102], [113]⟩ = .gt := by
  obtain ⟨_, _, _, _, _, atTerm⟩ := order_supports_search
  obtain ⟨_, _, ascends, column⟩ := atTerm ⟨[114], [102], [113]⟩
  have notAfter : order ⟨[114], [102], [113], Signed.greatest 64, 255, []⟩
      ⟨[114], [102], [113], Signed.wrap 64 (-1), 4, [1]⟩ ≠ .gt := by decide
  have newest := (column ⟨[114], [102], [113], Signed.greatest 64, 255, []⟩ rfl rfl).2.mpr
    (by decide)
  have notBefore : orderToTerm ⟨[114], [102], [113], Signed.greatest 64, 255, []⟩
      ⟨[114], [102], [113]⟩ ≠ .lt := by
    rw [newest]
    decide
  exact ⟨notAfter, newest, ascends _ _ notAfter notBefore,
    (column ⟨[114], [102], [113], Signed.wrap 64 (-1), 4, [1]⟩ rfl rfl).1.mpr (by decide)⟩

end Cell

end WideRow
