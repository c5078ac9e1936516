import WideRow.KeyRange.Basic

/-!
# Split points partition the keys

The ranges between successive split points hold the keys from the lower bound of the first range on, each
key once, and the keys of a range sort before those of the ranges behind it.

* `KeyRange.contains_halfOpen` : the keys of a half-open range are those that are not below its lower
  bound, and below its upper bound unless that is open.
* `KeyRange.countP_between`, `KeyRange.pairwise_between` : how often a key lies in the ranges from a bound
  on, and in which order keys lie in them, by induction on the split points.
* `KeyRange.splitAt_partition` : all keys, from the empty bound on.
-/

namespace WideRow

namespace KeyRange

/-! ### Half-open ranges -/

/-- No key sorts before the empty one, so an open lower bound is a bound like any other. -/
theorem compare_nil_ne_lt (key : Bytes) : compare key [] ≠ .lt := by
  cases key with
  | nil => decide
  | cons byte rest => simp [List.compare_cons_nil]

theorem lt_of_lt_of_not_lt {low point high : Bytes} (below : compare low point = .lt)
    (notBelow : compare high point ≠ .lt) : compare low high = .lt := by
  have le : (compare point high).isLE = true := by
    rw [← Std.OrientedCmp.isGE_eq_isLE]
    exact Ordering.isGE_iff_ne_lt.mpr notBelow
  exact Std.TransCmp.lt_of_lt_of_isLE below le

theorem contains_halfOpen {lower upper key : Bytes} :
    (halfOpen lower upper).contains key = true ↔
      compare key lower ≠ .lt ∧ (upper = [] ∨ compare key upper = .lt) := by
  have below : (halfOpen lower upper).admitsBelow key = true ↔ compare key lower ≠ .lt := by
    cases lower with
    | nil => simp [admitsBelow, isLowerUnbound, halfOpen, compare_nil_ne_lt]
    | cons byte rest =>
      simp only [admitsBelow, isLowerUnbound, halfOpen, List.isEmpty_cons, Bool.false_or]
      cases compare key (byte :: rest) <;> simp
  have above : (halfOpen lower upper).admitsAbove key = true ↔
      upper = [] ∨ compare key upper = .lt := by
    simp only [admitsAbove, isUpperUnbound, halfOpen, Bool.or_eq_true, List.isEmpty_iff]
    cases compare key upper <;> simp
  rw [contains, Bool.and_eq_true, below, above]

/-- A stretch of a buffer lies in a range like the key that it holds. -/
theorem containsSlice?_eq (range : KeyRange) {buffer : Bytes} {offset length : Nat}
    (inside : offset + length ≤ buffer.length) :
    range.containsSlice? buffer offset length =
      some (range.contains (Bytes.slice buffer offset length)) := by
  rw [containsSlice?, Bytes.slice?, if_pos inside]
  split
  · rename_i everything
    rw [isEverything, Bool.and_eq_true] at everything
    simp [contains, admitsBelow, admitsAbove, everything]
  · rfl

/-! ### Ranges from a bound on -/

variable {lower : Bytes} {points : List Bytes}

theorem between_eq_zipWith (lower : Bytes) (points : List Bytes) :
    between lower points = List.zipWith halfOpen (lower :: points) (points ++ [[]]) := by
  induction points generalizing lower with
  | nil => rfl
  | cons point rest ih =>
    show halfOpen lower point :: between point rest = _
    rw [ih]
    rfl

/-- A key that is not below the bound lies in one of the ranges, and one that is below it in none. -/
theorem countP_between (nonempty : ∀ point ∈ points, point ≠ [])
    (ascending : (lower :: points).Pairwise fun a b => compare a b = .lt) (key : Bytes) :
    (between lower points).countP (fun range => range.contains key) =
      if compare key lower = .lt then 0 else 1 := by
  induction points generalizing lower with
  | nil =>
    show [halfOpen lower []].countP (fun range => range.contains key) = _
    by_cases below : compare key lower = .lt <;> simp [contains_halfOpen, below]
  | cons point rest ih =>
    obtain ⟨first, later⟩ := List.pairwise_cons.mp ascending
    have less : compare lower point = .lt := first point List.mem_cons_self
    have others := ih (fun other member => nonempty other (List.mem_cons_of_mem _ member)) later
    have bounded : point ≠ [] := nonempty point List.mem_cons_self
    show (halfOpen lower point :: between point rest).countP (fun range => range.contains key) = _
    rw [List.countP_cons, others]
    -- the split point parts the keys of the first range from those of the others
    by_cases before : compare key point = .lt
    · by_cases below : compare key lower = .lt <;> simp [contains_halfOpen, before, below, bounded]
    · have notBelow : compare key lower ≠ .lt := by
        intro below
        exact before (Std.TransCmp.lt_trans below less)
      simp [contains_halfOpen, before, notBelow, bounded]

theorem compare_ne_lt_of_between (nonempty : ∀ point ∈ points, point ≠ [])
    (ascending : (lower :: points).Pairwise fun a b => compare a b = .lt) {range : KeyRange}
    (member : range ∈ between lower points) {key : Bytes} (inside : range.contains key = true) :
    compare key lower ≠ .lt := by
  intro below
  have none := countP_between nonempty ascending key
  rw [if_pos below, List.countP_eq_zero] at none
  exact none range member inside

/-- The ranges lie one behind the other. -/
theorem pairwise_between (nonempty : ∀ point ∈ points, point ≠ [])
    (ascending : (lower :: points).Pairwise fun a b => compare a b = .lt) :
    (between lower points).Pairwise fun first later => ∀ low high, first.contains low = true →
      later.contains high = true → compare low high = .lt := by
  induction points generalizing lower with
  | nil => exact List.pairwise_singleton _ _
  | cons point rest ih =>
    obtain ⟨_, ascend⟩ := List.pairwise_cons.mp ascending
    have behind : ∀ other ∈ rest, other ≠ [] :=
      fun other member => nonempty other (List.mem_cons_of_mem _ member)
    refine List.pairwise_cons.mpr ⟨?_, ih behind ascend⟩
    intro range member low high lowInside highInside
    have notBelow := compare_ne_lt_of_between behind ascend member highInside
    obtain ⟨_, unbound | below⟩ := contains_halfOpen.mp lowInside
    · exact absurd unbound (nonempty point List.mem_cons_self)
    · exact lt_of_lt_of_not_lt below notBelow

/-! ### Partitions -/

/-- Keys at which the key space can be split: none is empty, and each sorts before the next. -/
structure SplitPoints (points : List Bytes) : Prop where
  nonempty : ∀ point ∈ points, point ≠ []
  ascending : points.Pairwise fun a b => compare a b = .lt

theorem SplitPoints.ascending_nil (given : SplitPoints points) :
    ([] :: points).Pairwise fun a b => compare a b = .lt := by
  refine List.pairwise_cons.mpr ⟨?_, given.ascending⟩
  intro point member
  cases point with
  | nil => exact absurd rfl (given.nonempty [] member)
  | cons byte rest => exact List.compare_nil_cons

/-- **Split points partition the key space.**  The ranges before the first split point, between successive
ones and from the last one on hold every key exactly once, the empty key with them, whether the key is
given by itself or as a stretch of a buffer.  Every key of an earlier range sorts before every key of a
later one. -/
theorem splitAt_partition (given : SplitPoints points) :
    splitAt points = List.zipWith halfOpen ([] :: points) (points ++ [[]]) ∧
    (∀ key, (splitAt points).countP (fun range => range.contains key) = 1) ∧
    (∀ buffer offset length, offset + length ≤ buffer.length →
      (splitAt points).countP
        (fun range => range.containsSlice? buffer offset length == some true) = 1) ∧
    (splitAt points).Pairwise fun first later => ∀ low high, first.contains low = true →
      later.contains high = true → compare low high = .lt := by
  have once : ∀ key, (splitAt points).countP (fun range => range.contains key) = 1 := by
    intro key
    have count := countP_between given.nonempty given.ascending_nil key
    rw [if_neg (compare_nil_ne_lt key)] at count
    exact count
  refine ⟨between_eq_zipWith [] points, once, ?_, pairwise_between given.nonempty given.ascending_nil⟩
  intro buffer offset length inside
  have same : (fun range : KeyRange => range.containsSlice? buffer offset length == some true) =
      fun range => range.contains (Bytes.slice buffer offset length) := by
    funext range
    rw [containsSlice?_eq range inside]
    cases range.contains (Bytes.slice buffer offset length) <;> rfl
  rw [same]
  exact once _

/-- A split point and its first continuation, with the empty key before them and both of them behind. -/
theorem splitAt_partition_prefix :
    SplitPoints [[98], [98, 0]] ∧
      splitAt [[98], [98, 0]] = [halfOpen [] [98], halfOpen [98] [98, 0], halfOpen [98, 0] []] ∧
      (splitAt [[98], [98, 0]]).countP (fun range => range.contains []) = 1 ∧
      (splitAt [[98], [98, 0]]).countP
        (fun range => range.containsSlice? [1, 98, 0, 2] 1 2 == some true) = 1 ∧
      compare ([98] : Bytes) [98, 0] = .lt := by
  have given : SplitPoints [[98], [98, 0]] := ⟨by decide, by decide⟩
  obtain ⟨ranges, once, inBuffer, ordered⟩ := splitAt_partition given
  refine ⟨given, ranges, once [], inBuffer _ _ _ (by decide), ?_⟩
  rw [ranges] at ordered
  have later := (List.pairwise_cons.mp (List.pairwise_cons.mp ordered).2).1
  exact later _ (List.mem_singleton.mpr rfl) [98] [98, 0] (by decide) (by decide)

end KeyRange

end WideRow
