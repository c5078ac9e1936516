import WideRow.Proofs.Expr.Evaluate
import WideRow.Proofs.Number.Decimal
import WideRow.Proofs.Value.Typing

/-!
# Folds of integers

The fold of a node on 64-bit integers beside the same fold on integers without bounds.  They agree for as
long as no divisor is zero and no partial result leaves 64 bits; the first step at which one of these
fails decides the fault, whatever comes after it.

* `Arithmetic.integerStep_eq_ok`, `Arithmetic.integerStep_eq_error`: what one step does.
* `Arithmetic.foldInteger_eq_ok`, `Arithmetic.foldInteger_eq_error`: what the fold does.
* `Expr.integer_fold_exact`: the result for a node.
-/

namespace WideRow

open Fallible

namespace Arithmetic

/-! ### The fold without bounds -/

/-- The fold on integers without bounds; division cuts the fraction. -/
def exactFold (op : ArithmeticOp) (first : Int) (others : List Int) : Int :=
  others.foldl (exactStep op) first

/-- A step that neither divides by zero nor leaves 64 bits. -/
structure StepFits (op : ArithmeticOp) (folded next : Int) : Prop where
  divisor : op = .divide → next ≠ 0
  fits : Signed.InRange 64 (exactStep op folded next)

/-- What is wrong with a step.  Where the divisor is zero there is no result that could be out of
range. -/
inductive StepFails (op : ArithmeticOp) (folded next : Int) : NumericFault → Prop
  | divisionByZero (divides : op = .divide) (zero : next = 0) :
      StepFails op folded next .divisionByZero
  | overflow (divisor : op = .divide → next ≠ 0)
      (outside : ¬ Signed.InRange 64 (exactStep op folded next)) :
      StepFails op folded next .overflow

/-- Every step of the fold fits, from the partial result that it starts with. -/
def FitsThroughout (op : ArithmeticOp) (first : Int) (others : List Int) : Prop :=
  ∀ before next after, others = before ++ next :: after →
    StepFits op (exactFold op first before) next

/-- The fold comes to a step that fails in this way, and every step before it fits. -/
def FirstFails (op : ArithmeticOp) (first : Int) (others : List Int) (cause : NumericFault) : Prop :=
  ∃ before next after, others = before ++ next :: after ∧ FitsThroughout op first before ∧
    StepFails op (exactFold op first before) next cause

theorem fitsThroughout_nil (op : ArithmeticOp) (first : Int) : FitsThroughout op first [] := by
  intro before next after split
  exact absurd split.symm (List.append_ne_nil_of_right_ne_nil before (List.cons_ne_nil next after))

theorem fitsThroughout_cons {op : ArithmeticOp} {first next : Int} {others : List Int} :
    FitsThroughout op first (next :: others) ↔
      StepFits op first next ∧ FitsThroughout op (exactStep op first next) others := by
  constructor
  · intro fits
    refine ⟨fits [] next others rfl, ?_⟩
    intro before later after split
    exact fits (next :: before) later after (congrArg (next :: ·) split)
  · intro ⟨now, fits⟩ before later after split
    cases before with
    | nil =>
      cases split
      exact now
    | cons head before =>
      injection split with same split
      exact same ▸ fits before later after split

theorem not_firstFails_nil {op : ArithmeticOp} {first : Int} {cause : NumericFault} :
    ¬ FirstFails op first [] cause := by
  intro ⟨before, next, after, split, _⟩
  exact List.append_ne_nil_of_right_ne_nil before (List.cons_ne_nil next after) split.symm

theorem firstFails_cons {op : ArithmeticOp} {first next : Int} {others : List Int}
    {cause : NumericFault} :
    FirstFails op first (next :: others) cause ↔
      StepFails op first next cause ∨
        StepFits op first next ∧ FirstFails op (exactStep op first next) others cause := by
  constructor
  · intro ⟨before, later, after, split, fits, fails⟩
    cases before with
    | nil =>
      cases split
      exact .inl fails
    | cons head before =>
      injection split with same split
      subst same
      obtain ⟨now, fits⟩ := fitsThroughout_cons.mp fits
      exact .inr ⟨now, before, later, after, split, fits, fails⟩
  · rintro (fails | ⟨now, before, later, after, split, fits, fails⟩)
    · exact ⟨[], next, others, rfl, fitsThroughout_nil op first, fails⟩
    · exact ⟨next :: before, later, after, congrArg (next :: ·) split,
        fitsThroughout_cons.mpr ⟨now, fits⟩, fails⟩

/-! ### Steps -/

theorem integerStep_of_divisor {op : ArithmeticOp} {folded next : Signed 64}
    (divisor : op = .divide → next.val ≠ 0) :
    integerStep op folded next = orOverflow (Signed.ofInt? 64 (exactStep op folded.val next.val)) :=
  if_neg fun ⟨divides, zero⟩ => divisor divides zero

theorem integerStep_of_zero {op : ArithmeticOp} {folded next : Signed 64} (divides : op = .divide)
    (zero : next.val = 0) : integerStep op folded next = .error (.numeric .divisionByZero) :=
  if_pos ⟨divides, zero⟩

theorem integerStep_eq_ok {op : ArithmeticOp} {folded next result : Signed 64} :
    integerStep op folded next = .ok result ↔
      StepFits op folded.val next.val ∧ result.val = exactStep op folded.val next.val := by
  by_cases zero : op = .divide ∧ next.val = 0
  · rw [integerStep_of_zero zero.1 zero.2]
    exact iff_of_false nofun fun ⟨fits, _⟩ => fits.divisor zero.1 zero.2
  · have divisor : op = .divide → next.val ≠ 0 := not_and.mp zero
    rw [integerStep_of_divisor divisor, orOverflow_eq_ok, Signed.ofInt?_eq_some]
    constructor
    · intro exact_
      exact ⟨⟨divisor, exact_ ▸ Signed.inRange_val result⟩, exact_⟩
    · intro ⟨_, exact_⟩
      exact exact_

theorem integerStep_eq_error {op : ArithmeticOp} {folded next : Signed 64} {fault : QueryFault} :
    integerStep op folded next = .error fault ↔
      ∃ cause, fault = .numeric cause ∧ StepFails op folded.val next.val cause := by
  by_cases zero : op = .divide ∧ next.val = 0
  · rw [integerStep_of_zero zero.1 zero.2]
    constructor
    · intro answer
      injection answer with same
      exact ⟨_, same.symm, .divisionByZero zero.1 zero.2⟩
    · intro ⟨cause, same, fails⟩
      cases fails with
      | divisionByZero _ _ => rw [same]
      | overflow divisor _ => exact absurd zero.2 (divisor zero.1)
  · have divisor : op = .divide → next.val ≠ 0 := not_and.mp zero
    rw [integerStep_of_divisor divisor, orOverflow_eq_error, Signed.ofInt?_eq_none]
    constructor
    · intro ⟨outside, same⟩
      exact ⟨_, same, .overflow divisor outside⟩
    · intro ⟨cause, same, fails⟩
      cases fails with
      | divisionByZero divides zero => exact absurd zero (divisor divides)
      | overflow _ outside => exact ⟨outside, same⟩

/-! ### Folds -/

/-- The operands as values. -/
abbrev integerValues (operands : List (Signed 64)) : List Value := operands.map Value.integer

theorem foldInteger_eq_ok {op : ArithmeticOp} {first result : Signed 64} {others : List (Signed 64)} :
    foldInteger op first (integerValues others) = .ok result ↔
      FitsThroughout op first.val (others.map Signed.val) ∧
        result.val = exactFold op first.val (others.map Signed.val) := by
  induction others generalizing first with
  | nil =>
    show Except.ok first = Except.ok result ↔
      FitsThroughout op first.val [] ∧ result.val = first.val
    rw [Except.ok.injEq, and_iff_right (fitsThroughout_nil op first.val)]
    exact ⟨fun same => same ▸ rfl, fun same => (Signed.eq_of_val same).symm⟩
  | cons next others ih =>
    show integerStep op first next >>= _ = .ok result ↔ _
    rw [bind_eq_ok, List.map_cons, fitsThroughout_cons]
    constructor
    · intro ⟨folded, step, rest⟩
      obtain ⟨now, same⟩ := integerStep_eq_ok.mp step
      obtain ⟨later, exact_⟩ := ih.mp rest
      rw [same] at later exact_
      exact ⟨⟨now, later⟩, exact_⟩
    · intro ⟨⟨now, later⟩, exact_⟩
      obtain ⟨folded, same⟩ := Signed.exists_of_inRange now.fits
      refine ⟨folded, integerStep_eq_ok.mpr ⟨now, same⟩, ih.mpr ?_⟩
      rw [same]
      exact ⟨later, exact_⟩

theorem foldInteger_eq_error {op : ArithmeticOp} {first : Signed 64} {others : List (Signed 64)}
    {fault : QueryFault} :
    foldInteger op first (integerValues others) = .error fault ↔
      ∃ cause, fault = .numeric cause ∧
        FirstFails op first.val (others.map Signed.val) cause := by
  induction others generalizing first with
  | nil => exact iff_of_false nofun fun ⟨_, _, fails⟩ => not_firstFails_nil fails
  | cons next others ih =>
    show integerStep op first next >>= _ = .error fault ↔ _
    rw [bind_eq_error, List.map_cons]
    constructor
    · rintro (answer | ⟨folded, step, rest⟩)
      · obtain ⟨cause, same, fails⟩ := integerStep_eq_error.mp answer
        exact ⟨cause, same, firstFails_cons.mpr (.inl fails)⟩
      · obtain ⟨now, value⟩ := integerStep_eq_ok.mp step
        obtain ⟨cause, same, later⟩ := ih.mp rest
        rw [value] at later
        exact ⟨cause, same, firstFails_cons.mpr (.inr ⟨now, later⟩)⟩
    · intro ⟨cause, same, fails⟩
      rcases firstFails_cons.mp fails with fails | ⟨now, later⟩
      · exact .inl (integerStep_eq_error.mpr ⟨cause, same, fails⟩)
      · obtain ⟨folded, value⟩ := Signed.exists_of_inRange now.fits
        rw [← value] at later
        exact .inr ⟨folded, integerStep_eq_ok.mpr ⟨now, value⟩, ih.mpr ⟨cause, same, later⟩⟩

/-! ### The node -/

theorem any_isNull_integerValues (operands : List (Signed 64)) :
    (integerValues operands).any Value.isNull = false := by
  rw [List.any_map]
  exact List.any_eq_false.mpr fun _ _ => nofun

theorem evaluate_integerValues {op : ArithmeticOp} {type : DataType}
    (integral : type = .integer ∨ type = .bigInt) (steps : List Width) (first : Signed 64)
    (others : List (Signed 64)) :
    evaluate op type steps (integerValues (first :: others)) =
      foldInteger op first (integerValues others) >>= fun folded => .ok (.integer folded) := by
  have present := Bool.eq_false_iff.mp (any_isNull_integerValues (first :: others))
  rcases integral with same | same
  · rw [same]
    exact if_neg present
  · rw [same]
    exact if_neg present

end Arithmetic

namespace Expr

open Arithmetic

/-- **Integer arithmetic is exact or a fault.**  Take an arithmetic node of an integer type and integers
for its operands.  It gives an integer exactly if no divisor is zero and no partial result of the fold
without bounds leaves 64 bits, and the integer is the result of that fold.  Otherwise it ends in the
fault of the first step at which one of these fails. -/
theorem integer_fold_exact {op : ArithmeticOp} {operands : List Expr} {type : DataType}
    (typed : (arithmetic op operands).type? = some type)
    (integral : type = .integer ∨ type = .bigInt) (first : Signed 64) (others : List (Signed 64)) :
    ∃ result, Settles (arithmetic op operands) (integerValues (first :: others)) result ∧
      (∀ value, result = .ok value ↔
        FitsThroughout op first.val (others.map Signed.val) ∧
          ∃ n, value = .integer n ∧ n.val = exactFold op first.val (others.map Signed.val)) ∧
      ∀ fault, result = .error fault ↔
        ∃ cause, fault = .numeric cause ∧ FirstFails op first.val (others.map Signed.val) cause := by
  refine ⟨_, settles_arithmetic typed _, ?_⟩
  rw [evaluate_integerValues integral]
  constructor
  · intro value
    rw [bind_eq_ok]
    constructor
    · intro ⟨folded, answer, same⟩
      injection same with same
      obtain ⟨fits, exact_⟩ := foldInteger_eq_ok.mp answer
      exact ⟨fits, folded, same.symm, exact_⟩
    · intro ⟨fits, n, same, exact_⟩
      exact ⟨n, foldInteger_eq_ok.mpr ⟨fits, exact_⟩, congrArg Except.ok same.symm⟩
  · intro fault
    rw [bind_eq_error, or_iff_left (fun ⟨_, _, answer⟩ => nomatch answer)]
    exact foldInteger_eq_error

/-- The least 64-bit integer, divided by -1 and then by zero. -/
def leastQuotient : Expr :=
  arithmetic .divide [literal (.integer ⟨-9223372036854775808, by decide, by decide⟩) (some .bigInt),
    literal (.integer ⟨-1, by decide, by decide⟩) (some .integer),
    literal (.integer ⟨0, by decide, by decide⟩) (some .integer)]

/-- The quotient that overflows decides the fault, not the division by zero after it. -/
theorem integer_fold_exact_leastQuotient :
    leastQuotient.type? = some .bigInt ∧
      leastQuotient.evaluate Row.empty = .error (.numeric .overflow) := by
  have typed : leastQuotient.type? = some .bigInt := rfl
  refine ⟨typed, ?_⟩
  obtain ⟨result, ⟨_, settled⟩, _, faults⟩ := integer_fold_exact typed (.inr rfl)
    ⟨-9223372036854775808, by decide, by decide⟩
    [⟨-1, by decide, by decide⟩, ⟨0, by decide, by decide⟩]
  have outside : ¬ Signed.InRange 64 (exactStep .divide (-9223372036854775808) (-1)) := by decide
  rw [leastQuotient, settled Row.empty rfl, faults]
  exact ⟨.overflow, rfl, [], -1, [0], rfl, fitsThroughout_nil _ _,
    .overflow (fun _ => by decide) outside⟩

end Expr

end WideRow
