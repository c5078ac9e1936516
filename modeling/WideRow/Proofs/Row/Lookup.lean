import WideRow.Proofs.Cell.Term
import WideRow.Proofs.Row.Shapes

/-!
# Looking up a column

The search for a column halves a window of positions.  What it arrives at is known from how the items
compare to the target (`Search.Finds`): before it nothing lies after the target, from it on nothing lies
before the target, and an item that compares equal is found if there is one.

* `Search.finds_position` : the search of items in order;
* `Row.exists_least` : among cells in store order it arrives at the least one that does not sort before
  the term;
* `Row.find_eq_first` : so it finds what going through the cells from the first one finds, and a lookup
  the latest version of the column.
-/

namespace WideRow

namespace Search

variable {α : Type} {toTarget : α → Ordering} {items : List α}

/-! ### Halving a window -/

/-- Narrowing a window of positions, of which those after the target are the last ones, comes to the last
position that is not after the target, or to the first one of the window. -/
theorem narrow_last {isAfter : Nat → Bool} {base size : Nat} (nonempty : 0 < size)
    (rises : ∀ i j, i ≤ j → j < base + size → isAfter i = true → isAfter j = true) :
    base ≤ narrow isAfter base size ∧ narrow isAfter base size < base + size ∧
      (narrow isAfter base size = base ∨ isAfter (narrow isAfter base size) = false) ∧
      ∀ i, narrow isAfter base size < i → i < base + size → isAfter i = true := by
  fun_induction narrow isAfter base size with
  | case1 base size small => exact ⟨by omega, by omega, .inl rfl, fun i above below => by omega⟩
  | case2 base size large half middle ih =>
    have split : middle = base + size / 2 := rfl
    have halved : half = size / 2 := rfl
    cases after : isAfter middle with
    | true =>
      -- the lower part is kept: what is cut off lies after the target with the middle
      simp only [after, if_true, dite_true] at ih ⊢
      obtain ⟨low, high, kept, above⟩ := ih (by omega)
        (fun i j le below => rises i j le (by omega))
      refine ⟨low, by omega, kept, fun i past below => ?_⟩
      by_cases inside : i < base + (size - half)
      · exact above i past inside
      · exact rises middle i (by omega) below after
    | false =>
      simp only [after, Bool.false_eq_true, if_false, dite_false] at ih ⊢
      obtain ⟨low, high, kept, above⟩ := ih (by omega)
        (fun i j le below => rises i j le (by omega))
      refine ⟨by omega, by omega, .inr ?_, fun i past below => above i past (by omega)⟩
      cases kept with
      | inl same => rw [same, after]
      | inr notAfter => exact notAfter

/-! ### Items in order -/

/-- Items that come first if they lie before the target, and last if they lie after it. -/
def Ascending (toTarget : α → Ordering) (items : List α) : Prop :=
  items.Pairwise fun a b => (toTarget a = .gt → toTarget b = .gt) ∧ (toTarget b = .lt → toTarget a = .lt)

/-- What is found at a position: nothing before it lies after the target, nothing from it on lies before
the target, and it holds an item that compares equal if there is such an item. -/
structure Finds (toTarget : α → Ordering) (items : List α) (place : Nat) : Prop where
  before : ∀ i item, items[i]? = some item → i < place → toTarget item ≠ .gt
  onward : ∀ i item, items[i]? = some item → place ≤ i → toTarget item ≠ .lt
  hit : ∀ item ∈ items, toTarget item = .eq → ∃ found, items[place]? = some found ∧ toTarget found = .eq

/-- What holds of every item and a later one, and of every item and itself, holds of an item and one that
is not earlier. -/
theorem rel_getElem? {r : α → α → Prop} (self : ∀ a, r a a) (pairs : items.Pairwise r) {i j : Nat}
    {a b : α} (le : i ≤ j) (first : items[i]? = some a) (second : items[j]? = some b) : r a b := by
  obtain ⟨_, rfl⟩ := List.getElem?_eq_some_iff.mp first
  obtain ⟨_, rfl⟩ := List.getElem?_eq_some_iff.mp second
  rcases Nat.lt_or_eq_of_le le with less | same
  · exact List.pairwise_iff_getElem.mp pairs i j _ _ less
  · subst same
    exact self _

theorem Ascending.getElem? (ascending : Ascending toTarget items) {i j : Nat} {a b : α} (le : i ≤ j)
    (first : items[i]? = some a) (second : items[j]? = some b) :
    (toTarget a = .gt → toTarget b = .gt) ∧ (toTarget b = .lt → toTarget a = .lt) :=
  rel_getElem? (fun _ => ⟨id, id⟩) ascending le first second

/-- Whether the item at a position lies after the target. -/
def isAfter (toTarget : α → Ordering) (items : List α) (i : Nat) : Bool :=
  (items[i]?).any fun item => toTarget item == .gt

theorem isAfter_of_getElem? {i : Nat} {item : α} (stored : items[i]? = some item) :
    isAfter toTarget items i = (toTarget item == .gt) := by
  rw [isAfter, stored, Option.any_some]

/-- The search narrows its window to the last position that is not after the target, or to the first
position, and looks once more at the item there. -/
theorem exists_last (ascending : Ascending toTarget items) (nonempty : items ≠ []) :
    ∃ last item, items[last]? = some item ∧ (last = 0 ∨ toTarget item ≠ .gt) ∧
      (∀ i other, items[i]? = some other → last < i → toTarget other = .gt) ∧
      position toTarget items = if toTarget item = .lt then last + 1 else last := by
  have rises : ∀ i j, i ≤ j → j < 0 + items.length →
      isAfter toTarget items i = true → isAfter toTarget items j = true := by
    intro i j le below after
    have first : items[i]? = some items[i] := List.getElem?_eq_getElem (by omega)
    have second : items[j]? = some items[j] := List.getElem?_eq_getElem (by omega)
    rw [isAfter_of_getElem? first, beq_iff_eq] at after
    rw [isAfter_of_getElem? second, beq_iff_eq]
    exact (ascending.getElem? le first second).1 after
  obtain ⟨_, inside, kept, above⟩ := narrow_last (List.length_pos_iff.mpr nonempty) rises
  generalize window : narrow (isAfter toTarget items) 0 items.length = last at inside kept above
  have stored : items[last]? = some items[last] := List.getElem?_eq_getElem (by omega)
  refine ⟨last, items[last], stored, ?_, ?_, ?_⟩
  · rw [isAfter_of_getElem? stored, beq_eq_false_iff_ne] at kept
    exact kept
  · intro i other found past
    have bound := (List.getElem?_eq_some_iff.mp found).1
    have after := above i past (by omega)
    rw [isAfter_of_getElem? found, beq_iff_eq] at after
    exact after
  · have narrowed : narrow (fun i => (items[i]?).any fun item => toTarget item == .gt) 0
        items.length = last := window
    unfold position
    simp only [narrowed, stored]

/-- **The binary search of items in order.** -/
theorem finds_position (ascending : Ascending toTarget items) :
    Finds toTarget items (position toTarget items) := by
  by_cases empty : items = []
  · subst empty
    exact ⟨fun i item stored => (List.not_mem_nil (List.mem_of_getElem? stored)).elim,
      fun i item stored => (List.not_mem_nil (List.mem_of_getElem? stored)).elim,
      fun item member => (List.not_mem_nil member).elim⟩
  obtain ⟨last, item, stored, kept, above, place⟩ := exists_last ascending empty
  rw [place]
  by_cases less : toTarget item = .lt
  · rw [if_pos less]
    have below : ∀ i other, items[i]? = some other → i ≤ last → toTarget other = .lt :=
      fun i other found le => (ascending.getElem? le found stored).2 less
    refine ⟨?_, ?_, ?_⟩
    · intro i other found before
      rw [below i other found (by omega)]
      decide
    · intro i other found onward
      rw [above i other found (by omega)]
      decide
    · intro other member equal
      obtain ⟨i, found⟩ := List.mem_iff_getElem?.mp member
      by_cases le : i ≤ last
      · rw [below i other found le] at equal
        cases equal
      · rw [above i other found (by omega)] at equal
        cases equal
  · rw [if_neg less]
    refine ⟨?_, ?_, ?_⟩
    · intro i other found before greater
      cases kept with
      | inl zero => omega
      | inr notAfter => exact notAfter ((ascending.getElem? (by omega) found stored).1 greater)
    · intro i other found onward
      rcases Nat.lt_or_eq_of_le onward with past | same
      · rw [above i other found past]
        decide
      · rw [← same, stored] at found
        injection found with found
        rw [← found]
        exact less
    · intro other member equal
      obtain ⟨i, found⟩ := List.mem_iff_getElem?.mp member
      refine ⟨item, stored, ?_⟩
      cases order : toTarget item with
      | eq => rfl
      | lt => exact absurd order less
      | gt =>
        -- the window has shrunk to the first position, and everything lies after the target
        have zero : last = 0 := kept.resolve_right fun notAfter => notAfter order
        have greater := (ascending.getElem? (by omega) stored found).1 order
        rw [greater] at equal
        cases equal

/-- Without an item that compares equal, it is the first item that does not lie before the target. -/
theorem Finds.getElem?_eq_find? {place : Nat} (finds : Finds toTarget items place)
    (apart : ∀ item ∈ items, toTarget item ≠ .eq) :
    items[place]? = items.find? fun item => toTarget item != .lt := by
  have earlier : ∀ i item, items[i]? = some item → i < place → toTarget item = .lt := by
    intro i item stored before
    have notGreater := finds.before i item stored before
    have notEqual := apart item (List.mem_of_getElem? stored)
    cases order : toTarget item with
    | lt => rfl
    | eq => exact absurd order notEqual
    | gt => exact absurd order notGreater
  symm
  cases stored : items[place]? with
  | none =>
    rw [List.find?_eq_none]
    intro item member
    obtain ⟨i, found⟩ := List.mem_iff_getElem?.mp member
    have bound := (List.getElem?_eq_some_iff.mp found).1
    have past := List.getElem?_eq_none_iff.mp stored
    rw [earlier i item found (by omega)]
    exact Bool.false_ne_true
  | some item =>
    obtain ⟨inside, same⟩ := List.getElem?_eq_some_iff.mp stored
    rw [List.find?_eq_some_iff_getElem]
    refine ⟨bne_iff_ne.mpr (finds.onward place item stored (Nat.le_refl _)), place, inside, same, ?_⟩
    intro i before
    have found : items[i]? = some items[i] := List.getElem?_eq_getElem _
    rw [earlier i _ found before]
    rfl

end Search

/-! ### Cells in store order -/

namespace PlacedCell

/-- Cells as the store keeps them. -/
def InStoreOrder (cells : List PlacedCell) : Prop :=
  cells.Pairwise fun a b => Cell.order a.cell b.cell ≠ .gt

/-- Cells in store order are in order for every search. -/
theorem InStoreOrder.ascending {cells : List PlacedCell} (ordered : InStoreOrder cells)
    (term : SearchTerm) :
    Search.Ascending (fun placed : PlacedCell => Cell.orderToTerm placed.cell term) cells := by
  exact List.Pairwise.imp (fun before => Cell.orderToTerm_ascends before term) ordered

/-- The latest version of a column among some cells: a cell of the column, of which no other cell has a
later timestamp, or the same timestamp and a greater type. -/
structure LatestOf (cells : List PlacedCell) (family qualifier : Bytes) (placed : PlacedCell) :
    Prop where
  member : placed ∈ cells
  inColumn : placed.cell.inColumn family qualifier = true
  latest : ∀ other ∈ cells, other.cell.inColumn family qualifier = true →
    other.cell.timestamp.val ≤ placed.cell.timestamp.val ∧
      (other.cell.timestamp = placed.cell.timestamp →
        other.cell.typeCode ≤ placed.cell.typeCode)

end PlacedCell

namespace Row

open PlacedCell

/-- The place of a term among cells in store order. -/
def place (cells : List PlacedCell) (term : SearchTerm) : Nat :=
  Search.position (fun placed => Cell.orderToTerm placed.cell term) cells

/-- If a cell does not sort before the term, the search arrives at a least one of those that do not. -/
theorem exists_least {cells : List PlacedCell} (ordered : InStoreOrder cells) {term : SearchTerm}
    {placed : PlacedCell} (member : placed ∈ cells)
    (notBefore : Cell.orderToTerm placed.cell term ≠ .lt) :
    ∃ found, cells[place cells term]? = some found ∧ Cell.orderToTerm found.cell term ≠ .lt ∧
      Cell.order found.cell placed.cell ≠ .gt := by
  have finds := Search.finds_position (ordered.ascending term)
  cases order : Cell.orderToTerm placed.cell term with
  | lt => exact absurd order notBefore
  | eq =>
    obtain ⟨found, here, equal⟩ := finds.hit placed member order
    refine ⟨found, here, ?_, ?_⟩
    · rw [equal]
      decide
    · rw [Cell.orderToTerm_eq_order] at equal order
      exact Ordering.isLE_iff_ne_gt.mp (Cell.precedes_iff.mp (Cell.precedes_of_eq equal order))
  | gt =>
    obtain ⟨i, stored⟩ := List.mem_iff_getElem?.mp member
    have bound := (List.getElem?_eq_some_iff.mp stored).1
    have le : place cells term ≤ i :=
      Nat.not_lt.mp fun before => finds.before i placed stored before order
    have here : cells[place cells term]? = some cells[place cells term] :=
      List.getElem?_eq_getElem (by omega)
    refine ⟨cells[place cells term], here, finds.onward _ _ here (Nat.le_refl _), ?_⟩
    refine Search.rel_getElem? ?_ ordered le here stored
    intro a
    have equal : Cell.order a.cell a.cell = .eq := Std.ReflCmp.compare_self
    rw [equal]
    decide

/-- What a search finds among cells of which none stands for the term: the first one that does not sort
before the term, if it is of the term's column. -/
theorem findIn_eq_find? {cells : List PlacedCell} (ordered : InStoreOrder cells) {term : SearchTerm}
    (apart : ∀ placed ∈ cells, ¬ placed.cell.StandsFor term) :
    findIn cells term =
      (cells.find? fun placed => Cell.orderToTerm placed.cell term != .lt).filter
        fun placed => placed.cell.inColumn term.family term.qualifier := by
  have finds := Search.finds_position (ordered.ascending term)
  have first := finds.getElem?_eq_find? fun placed member equal =>
    apart placed member (Cell.orderToTerm_eq_eq.mp equal)
  rw [findIn, first]
  cases cells.find? fun placed => Cell.orderToTerm placed.cell term != .lt with
  | none => rfl
  | some placed => rfl

theorem findIn_eq_some {cells : List PlacedCell} {term : SearchTerm} {found : PlacedCell} :
    findIn cells term = some found ↔
      cells[place cells term]? = some found ∧
        found.cell.inColumn term.family term.qualifier = true := by
  unfold findIn place
  rw [Option.bind_eq_bind, Option.bind_eq_some_iff]
  constructor
  · rintro ⟨placed, here, kept⟩
    obtain ⟨inColumn, same⟩ := Option.ite_none_right_eq_some.mp kept
    injection same with same
    rw [same] at here inColumn
    exact ⟨here, inColumn⟩
  · rintro ⟨here, inColumn⟩
    exact ⟨found, here, if_pos inColumn⟩

/-- Among cells of the term's row, a search finds a version of the term's column that no other version
of it precedes, if there is a version. -/
theorem findIn_of_inColumn {cells : List PlacedCell} (ordered : InStoreOrder cells) {term : SearchTerm}
    {version : PlacedCell} (member : version ∈ cells) (row : version.cell.row = term.row)
    (inColumn : version.cell.inColumn term.family term.qualifier = true) :
    ∃ found, findIn cells term = some found ∧ found.cell.row = term.row ∧
      Cell.order found.cell version.cell ≠ .gt := by
  obtain ⟨family, qualifier⟩ := Cell.inColumn_iff.mp inColumn
  obtain ⟨found, here, notBefore, least⟩ := exists_least ordered member
    (Cell.orderToTerm_ne_lt row family qualifier)
  obtain ⟨sameRow, sameColumn⟩ := Cell.column_of_between row family qualifier notBefore least
  exact ⟨found, findIn_eq_some.mpr ⟨here, Cell.inColumn_iff.mpr sameColumn⟩, sameRow, least⟩

/-- Among cells of the term's row, a search finds the latest version of the term's column, if the column
has any cells. -/
theorem findIn_latest {cells : List PlacedCell} (ordered : InStoreOrder cells) {term : SearchTerm}
    (row : ∀ placed ∈ cells, placed.cell.row = term.row) :
    ((findIn cells term).isSome = true ↔
        ∃ placed ∈ cells, placed.cell.inColumn term.family term.qualifier = true) ∧
      ∀ found, findIn cells term = some found →
        LatestOf cells term.family term.qualifier found := by
  constructor
  · constructor
    · intro isSome
      obtain ⟨found, held⟩ := Option.isSome_iff_exists.mp isSome
      obtain ⟨here, inColumn⟩ := findIn_eq_some.mp held
      exact ⟨found, List.mem_of_getElem? here, inColumn⟩
    · rintro ⟨placed, member, inColumn⟩
      obtain ⟨found, held, _⟩ := findIn_of_inColumn ordered member (row placed member) inColumn
      rw [held]
      rfl
  · intro found held
    obtain ⟨here, inColumn⟩ := findIn_eq_some.mp held
    have member := List.mem_of_getElem? here
    obtain ⟨family, qualifier⟩ := Cell.inColumn_iff.mp inColumn
    refine ⟨member, inColumn, ?_⟩
    intro other otherMember otherInColumn
    obtain ⟨sameFamily, sameQualifier⟩ := Cell.inColumn_iff.mp otherInColumn
    obtain ⟨least, heldLeast, _, notAfter⟩ := findIn_of_inColumn ordered otherMember
      (row other otherMember) otherInColumn
    rw [held] at heldLeast
    injection heldLeast with same
    have sameRow : found.cell.row = other.cell.row :=
      (row found member).trans (row other otherMember).symm
    rw [← same, Cell.order_of_column sameRow (family.trans sameFamily.symm)
      (qualifier.trans sameQualifier.symm), Ne, Ordering.then_eq_gt, not_or, not_and,
      Int.compare_eq_gt, Int.compare_eq_eq, Nat.compare_eq_gt] at notAfter
    refine ⟨Int.not_lt.mp notAfter.1, fun sameTime => ?_⟩
    exact UInt8.le_iff_toNat_le.mpr (Nat.not_lt.mp (notAfter.2 (congrArg Signed.val sameTime)))

/-- **The search for a column finds what going through the cells finds.**  In a row whose cells are in
store order, a search whose term no cell stands for finds the first cell that does not sort before the
term, if that cell is of the term's column, and otherwise nothing.  If all cells are of the row of the
key, a lookup finds a cell exactly where the column has one, and it is the latest version of the column,
also where a cell stands for the term. -/
theorem find_eq_first (row : Row) {cells : List PlacedCell} (parsed : row.cells = .ok cells)
    (ordered : InStoreOrder cells) :
    (∀ term, (∀ placed ∈ cells, ¬ placed.cell.StandsFor term) →
      row.find term =
        .ok ((cells.find? fun placed => Cell.orderToTerm placed.cell term != .lt).filter
          fun placed => placed.cell.inColumn term.family term.qualifier)) ∧
    ((∀ placed ∈ cells, placed.cell.row = row.key.bytes) → ∀ family qualifier,
      ∃ found, row.lookup family qualifier = .ok found ∧
        (found.isSome = true ↔
          ∃ placed ∈ cells, placed.cell.inColumn family qualifier = true) ∧
        ∀ placed, found = some placed → LatestOf cells family qualifier placed) := by
  have finds : ∀ term, row.find term = .ok (findIn cells term) := by
    intro term
    rw [find, parsed]
    rfl
  constructor
  · intro term apart
    rw [finds, findIn_eq_find? ordered apart]
  · intro sameRow family qualifier
    exact ⟨findIn cells (row.term family qualifier), finds _, findIn_latest ordered sameRow⟩

/-- A deletion at the greatest timestamp, an older version of its column, and a column of which the name
of the first one is a beginning. -/
def placedVersions : List PlacedCell :=
  [version 97 (Signed.greatest 64) .delete 0, version 97 (Signed.zero 64) .put 2,
    ⟨[114], [102], [97, 97], Signed.zero 64, 4, [1]⟩].map alone

/-- The row of these cells. -/
def versionsRow : Row := ⟨Span.whole [114], .cells placedVersions⟩

theorem find_eq_first_versions :
    versionsRow.cells = .ok placedVersions ∧ InStoreOrder placedVersions ∧
      (∀ placed ∈ placedVersions, ¬ placed.cell.StandsFor ⟨[114], [102], [97]⟩) ∧
      (∀ placed ∈ placedVersions, placed.cell.row = versionsRow.key.bytes) ∧
      versionsRow.find ⟨[114], [102], [97]⟩ =
        .ok (some (alone (version 97 (Signed.greatest 64) .delete 0))) ∧
      ∃ found, versionsRow.lookup [102] [] = .ok found ∧ found = none := by
  have ordered : InStoreOrder placedVersions := by
    unfold InStoreOrder
    decide +kernel
  have apart : ∀ placed ∈ placedVersions, ¬ placed.cell.StandsFor ⟨[114], [102], [97]⟩ := by
    intro placed member stands
    have different : ∀ placed ∈ placedVersions,
        Cell.orderToTerm placed.cell ⟨[114], [102], [97]⟩ ≠ .eq := by
      decide +kernel
    exact different placed member (Cell.orderToTerm_eq_eq.mpr stands)
  have row : ∀ placed ∈ placedVersions, placed.cell.row = versionsRow.key.bytes := by
    decide +kernel
  obtain ⟨searches, looks⟩ := find_eq_first versionsRow rfl ordered
  refine ⟨rfl, ordered, apart, row, ?_, ?_⟩
  · rw [searches ⟨[114], [102], [97]⟩ apart]
    decide +kernel
  · obtain ⟨found, looked, present, _⟩ := looks row [102] []
    refine ⟨found, looked, Option.not_isSome_iff_eq_none.mp fun isSome => ?_⟩
    have absent : ¬ ∃ placed ∈ placedVersions, placed.cell.inColumn [102] [] = true := by
      decide +kernel
    exact absent (present.mp isSome)

end Row

end WideRow
