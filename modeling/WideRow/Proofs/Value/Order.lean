import WideRow.Proofs.Bytes.Order
import WideRow.Proofs.Number.Decimal
import WideRow.Proofs.Value.Typing

/-!
# The order of values

Exchanging two values reverses their order (`Value.compare?_swap`), and a comparison keeps its meaning
when its operands are exchanged and its operator is mirrored (`CompareOp.evaluate_mirror`).

Two exact numbers that align are compared as integers at their common scale.  Then a number may be
replaced by the nearest one of a coarser scale, if the two count as equal (`Decimal.compare?_coarse`).
-/

namespace WideRow

/-! ### Exchanging operands -/

theorem Binary64.compare?_swap (x y : Binary64) :
    y.compare? x = (x.compare? y).map Ordering.swap := by
  have keys : compare y.key x.key = (compare x.key y.key).swap := Std.OrientedCmp.eq_swap
  unfold compare?
  rw [Bool.or_comm, keys]
  split <;> rfl

theorem Decimal.compare?_swap (a : Unscaled) (s : Nat) (b : Unscaled) (t : Nat) :
    compare? b t a s = (compare? a s b t).map Ordering.swap := by
  unfold compare?
  rw [Nat.max_comm t s]
  simp only
  cases rescale? a s (max s t) with
  | none =>
    cases rescale? b t (max s t) with
    | none => exact Binary64.compare?_swap _ _
    | some b' => exact Binary64.compare?_swap _ _
  | some a' =>
    cases rescale? b t (max s t) with
    | none => exact Binary64.compare?_swap _ _
    | some b' => exact congrArg some Std.OrientedCmp.eq_swap

namespace Value

theorem compare?_swap (a b : Value) : b.compare? a = (a.compare? b).map Ordering.swap := by
  cases a with
  | null => cases b <;> rfl
  | integer n =>
    cases b with
    | integer m => exact congrArg some Std.OrientedCmp.eq_swap
    | decimal u s => exact Decimal.compare?_swap _ _ _ _
    | float y => exact Binary64.compare?_swap _ _
    | null => rfl
    | text s => rfl
    | boolean b => rfl
  | decimal u s =>
    cases b with
    | integer m => exact Decimal.compare?_swap _ _ _ _
    | decimal w t => exact Decimal.compare?_swap _ _ _ _
    | float y => exact Binary64.compare?_swap _ _
    | null => rfl
    | text s => rfl
    | boolean b => rfl
  | float x =>
    cases b with
    | integer m => exact Binary64.compare?_swap _ _
    | decimal w t => exact Binary64.compare?_swap _ _
    | float y => exact Binary64.compare?_swap _ _
    | null => rfl
    | text s => rfl
    | boolean b => rfl
  | text s =>
    cases b with
    | text t => exact congrArg some Std.OrientedCmp.eq_swap
    | null => rfl
    | integer m => rfl
    | decimal w t => rfl
    | float y => rfl
    | boolean b => rfl
  | boolean first =>
    cases b with
    | boolean second => cases first <;> cases second <;> rfl
    | null => rfl
    | integer m => rfl
    | decimal w t => rfl
    | float y => rfl
    | text s => rfl

/-- Values that compare are numbers. -/
theorem isNaN_of_compare?_eq_some {a b : Value} {o : Ordering} (compared : a.compare? b = some o)
    (present : b.isNull = false) : a.isNaN = false := by
  cases a with
  | float x =>
    have ordered : ∀ y : Binary64, x.compare? y = some o → x.isNaN = false := by
      intro y ordered
      simp only [Binary64.compare?] at ordered
      split at ordered
      · cases ordered
      · rename_i numbers
        rw [Bool.not_eq_true, Bool.or_eq_false_iff] at numbers
        exact numbers.1
    cases b with
    | integer m => exact ordered _ compared
    | decimal w t => exact ordered _ compared
    | float y => exact ordered _ compared
    | null => cases present
    | text s => cases compared
    | boolean b => cases compared
  | null => rfl
  | integer n => rfl
  | decimal u s => rfl
  | text s => rfl
  | boolean b => rfl

end Value

/-- What a comparison of present values gives is given by their order. -/
theorem CompareOp.evaluate_eq_ok {op : CompareOp} {left right result : Value}
    (present : left.isNull = false) (present' : right.isNull = false) :
    op.evaluate left right = .ok result ↔
      ∃ o, left.compare? right = some o ∧ result = .boolean (op.admits o) := by
  rw [CompareOp.evaluate, Value.order, present, present', Bool.or_false, if_neg Bool.false_ne_true]
  cases left.compare? right with
  | none => exact iff_of_false nofun nofun
  | some o =>
    constructor
    · intro answer
      injection answer with same
      exact ⟨o, rfl, same.symm⟩
    · intro ⟨o', same, answer⟩
      injection same with same
      rw [answer, ← same]
      rfl

/-- A comparison keeps its meaning when its operands change places and its operator is mirrored. -/
theorem CompareOp.evaluate_mirror {op : CompareOp} {left right result : Value}
    (answer : op.evaluate left right = .ok result) :
    op.mirror.evaluate right left = .ok result := by
  by_cases missing : (left.isNull || right.isNull) = true
  · unfold CompareOp.evaluate at answer ⊢
    rw [if_pos missing] at answer
    rw [Bool.or_comm, if_pos missing]
    exact answer
  · rw [Bool.not_eq_true, Bool.or_eq_false_iff] at missing
    obtain ⟨o, ordered, same⟩ := (evaluate_eq_ok missing.1 missing.2).mp answer
    refine (evaluate_eq_ok missing.2 missing.1).mpr ⟨o.swap, ?_, ?_⟩
    · rw [Value.compare?_swap left right, ordered]
      rfl
    · rw [same, admits_mirror]

/-! ### Exact comparisons -/

/-- Two exact numbers can be brought to their common scale within 128 bits; other values always
align. -/
def Value.Aligns (left right : Value) : Prop :=
  ∀ a s b t, left.fixedPoint? = some (a, s) → right.fixedPoint? = some (b, t) →
    (Decimal.rescale? a s (max s t)).isSome = true ∧ (Decimal.rescale? b t (max s t)).isSome = true

/-- Scaling up keeps the order of two integers, and still does if the multiple of one of them is replaced
by a number that is less than a step away from it. -/
theorem compare_scaled {p q u d : Int} (positive : 0 < d) (near : q * d - u < d ∧ u - q * d < d)
    (level : p = q → p * d = u) : compare (p * d) u = compare p q := by
  have monotone : ∀ {a b : Int}, a < b → a * d + d ≤ b * d := by
    intro a b less
    have step : (a + 1) * d ≤ b * d := Int.mul_le_mul_of_nonneg_right less (Int.le_of_lt positive)
    rw [Int.add_mul, Int.one_mul] at step
    exact step
  rcases Int.lt_trichotomy p q with less | same | more
  · have step := monotone less
    rw [Int.compare_eq_lt.mpr less, Int.compare_eq_lt.mpr (by omega)]
  · rw [Int.compare_eq_eq.mpr same, Int.compare_eq_eq.mpr (level same)]
  · have step := monotone more
    rw [Int.compare_eq_gt.mpr more, Int.compare_eq_gt.mpr (by omega)]

namespace Decimal

theorem compare?_of_rescale? {a b a' b' : Unscaled} {s t : Nat}
    (left : rescale? a s (max s t) = some a') (right : rescale? b t (max s t) = some b') :
    compare? a s b t = some (compare a'.val b'.val) := by
  simp only [compare?, left, right]

theorem compare?_level (a b : Unscaled) (scale : Nat) :
    compare? a scale b scale = some (compare a.val b.val) := by
  refine compare?_of_rescale? ?_ ?_
  · rw [Nat.max_self]
    exact rescale?_self a scale
  · rw [Nat.max_self]
    exact rescale?_self b scale

/-- A number of no greater scale may be replaced by itself at the scale of the other one. -/
theorem compare?_fine {p q u : Unscaled} {s t : Nat} (le : s ≤ t)
    (same : rescale? u s t = some q) : compare? p t u s = some (compare p.val q.val) := by
  have scale : max t s = t := Nat.max_eq_left le
  refine compare?_of_rescale? ?_ ?_
  · rw [scale]
    exact rescale?_self p t
  · rw [scale]
    exact same

/-- A number of greater scale may be replaced by a near one at the scale of the other number, if the two
count as equal. -/
theorem compare?_coarse {p q u : Unscaled} {s t : Nat} (le : t ≤ s)
    (near : q.val * tenTo (s - t) - u.val < tenTo (s - t) ∧
      u.val - q.val * tenTo (s - t) < tenTo (s - t))
    (equal : compare? q t u s = some .eq) (aligned : (rescale? p t s).isSome = true) :
    compare? p t u s = some (compare p.val q.val) := by
  have scale : max t s = s := Nat.max_eq_right le
  obtain ⟨r, scaled⟩ := Option.isSome_iff_exists.mp aligned
  have stays : rescale? u s (max t s) = some u := by
    rw [scale]
    exact rescale?_self u s
  have moves : rescale? p t (max t s) = some r := by
    rw [scale]
    exact scaled
  have multiple := ((rescale?_eq_some_of_le le).mp scaled).2
  rw [compare?_of_rescale? moves stays, multiple]
  congr 1
  refine compare_scaled (Int.ofNat_lt.mpr (tenTo_pos _)) near ?_
  intro level
  have same : p = q := Signed.eq_of_val level
  rw [same] at moves
  rw [compare?_of_rescale? moves stays] at equal
  injection equal with equal
  rw [← multiple]
  exact Int.compare_eq_eq.mp equal

/-- A number may be replaced by itself rounded to the scale of the other one, if the two count as
equal. -/
theorem compare?_rounded {p q u : Unscaled} {s t : Nat} (rounded : rescale? u s t = some q)
    (equal : compare? q t u s = some .eq) (aligned : (rescale? p t (max t s)).isSome = true) :
    compare? p t u s = compare? p t q t := by
  rw [compare?_level p q t]
  by_cases le : s ≤ t
  · exact compare?_fine le rounded
  · have lt : t < s := Nat.lt_of_not_le le
    rw [Nat.max_eq_right (Nat.le_of_lt lt)] at aligned
    have positive : (0 : Int) < tenTo (s - t) := Int.ofNat_lt.mpr (tenTo_pos _)
    have near := nearestQuotient_near u.val positive
    rw [← ((rescale?_eq_some_of_lt lt).mp rounded).2] at near
    exact compare?_coarse (Nat.le_of_lt lt) (by omega) equal aligned

end Decimal

end WideRow
