import WideRow.Cell.Order
import WideRow.Proofs.Number.Decimal

/-!
# Sorting cells

The store order of cells is a total preorder: cells that differ in nothing but their values compare equal.
Sorting keeps such cells in their places (`Cell.isStableSort_mergeSort`), and cells are sorted alike
wherever they are placed (`PlacedCell.map_cell_sort`).
-/

namespace WideRow

namespace Cell

/-! ### The store order -/

instance : Std.TransCmp order :=
  inferInstanceAs (Std.TransCmp <| compareLex (compareOn row) <|
    compareLex (compareOn family) <| compareLex (compareOn qualifier) <|
      compareLex (fun a b => compareOn (fun cell : Cell => cell.timestamp.val) b a)
        (fun a b => compareOn (fun cell : Cell => cell.typeCode.toNat) b a))

theorem order_eq_eq {a b : Cell} :
    order a b = .eq ↔ a.row = b.row ∧ a.family = b.family ∧ a.qualifier = b.qualifier ∧
      a.timestamp = b.timestamp ∧ a.typeCode = b.typeCode := by
  have timestamps : compare b.timestamp.val a.timestamp.val = .eq ↔ a.timestamp = b.timestamp := by
    rw [Int.compare_eq_eq]
    exact ⟨fun same => Signed.eq_of_val same.symm, fun same => congrArg Signed.val same.symm⟩
  have types : compare b.typeCode.toNat a.typeCode.toNat = .eq ↔ a.typeCode = b.typeCode := by
    rw [Nat.compare_eq_eq]
    exact ⟨fun same => UInt8.toNat_inj.mp same.symm, fun same => congrArg UInt8.toNat same.symm⟩
  rw [order, Ordering.then_eq_eq, Ordering.then_eq_eq, Ordering.then_eq_eq, Ordering.then_eq_eq,
    timestamps, types, Std.compare_eq_iff_eq, Std.compare_eq_iff_eq, Std.compare_eq_iff_eq]

theorem precedes_iff {a b : Cell} : precedes a b = true ↔ (order a b).isLE = true := by
  rw [precedes, bne_iff_ne, Ordering.isLE_iff_ne_gt]

theorem precedes_trans (a b c : Cell) (first : precedes a b = true) (second : precedes b c = true) :
    precedes a c = true := by
  rw [precedes_iff] at first second ⊢
  exact Std.TransCmp.isLE_trans first second

theorem precedes_total (a b : Cell) : (precedes a b || precedes b a) = true := by
  have swapped : order b a = (order a b).swap := Std.OrientedCmp.eq_swap
  rw [Bool.or_eq_true, precedes_iff, precedes_iff, swapped]
  cases order a b with
  | lt => exact .inl rfl
  | eq => exact .inl rfl
  | gt => exact .inr rfl

/-- Cells that compare equal to a third one compare equal. -/
theorem precedes_of_eq {a b c : Cell} (first : order a c = .eq) (second : order b c = .eq) :
    precedes a b = true := by
  rw [precedes_iff, Std.TransCmp.congr_left first, Std.OrientedCmp.eq_symm second]
  rfl

/-! ### Sorting -/

/-- The second list holds the cells of the first one in store order, and those that compare equal to
any given cell in the order in which they were given. -/
structure IsStableSort (given sorted : List Cell) : Prop where
  perm : sorted.Perm given
  ordered : sorted.Pairwise fun a b => order a b ≠ .gt
  stable : ∀ cell, (sorted.filter fun other => order other cell == .eq) =
    given.filter fun other => order other cell == .eq

/-- Cells that compare equal to a given one are never swapped: they are in order as they stand. -/
theorem filter_mergeSort (cells : List Cell) (cell : Cell) :
    ((cells.mergeSort precedes).filter fun other => order other cell == .eq) =
      cells.filter fun other => order other cell == .eq := by
  have alike : (cells.filter fun other => order other cell == .eq).Pairwise
      fun a b => precedes a b = true := by
    refine List.pairwise_of_forall_mem_list ?_
    intro a memberA b memberB
    have first := beq_iff_eq.mp (List.mem_filter.mp memberA).2
    have second := beq_iff_eq.mp (List.mem_filter.mp memberB).2
    exact precedes_of_eq first second
  have kept := List.sublist_mergeSort precedes_trans precedes_total alike
    List.filter_sublist
  have inside := kept.filter fun other => order other cell == .eq
  rw [List.filter_filter] at inside
  simp only [Bool.and_self] at inside
  refine (inside.eq_of_length ?_).symm
  exact ((List.mergeSort_perm cells precedes).filter _).length_eq.symm

theorem isStableSort_mergeSort (cells : List Cell) :
    IsStableSort cells (cells.mergeSort precedes) where
  perm := List.mergeSort_perm cells precedes
  ordered := by
    refine (List.pairwise_mergeSort precedes_trans precedes_total cells).imp ?_
    intro a b before
    exact Ordering.isLE_iff_ne_gt.mp (precedes_iff.mp before)
  stable := filter_mergeSort cells

end Cell

theorem PlacedCell.map_cell_sort (cells : List PlacedCell) :
    (PlacedCell.sort cells).map PlacedCell.cell =
      (cells.map PlacedCell.cell).mergeSort Cell.precedes :=
  List.map_mergeSort fun _ _ _ _ => rfl

end WideRow
