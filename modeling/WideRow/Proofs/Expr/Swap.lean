import WideRow.Expr.Surface
import WideRow.Proofs.Expr.Evaluate
import WideRow.Proofs.Filter.Pushdown
import WideRow.Proofs.Value.Order

/-!
# Comparisons with their operands exchanged

A surface expression keeps its meaning when comparisons in it, nested ones included, exchange their
operands and mirror their operators.

* `Expr.Equivalent`: what a query can see of an expression.  It is kept by every kind of node, and by a
  comparison that exchanges its operands.
* `Surface.both_bind_swap`: one exchange, at the root.
* `Surface.Marked`: a surface expression with some of its comparisons marked.  All of them exchange their
  operands in `Marked.swapped`; `Marked.both_bind` is the induction over the tree.
-/

namespace WideRow

/-! ### Two computations -/

namespace Fallible

variable {α β γ δ : Type}

/-- Two computations both fail, or both succeed with related results. -/
inductive Both (related : α → β → Prop) : Fallible α → Fallible β → Prop
  | failed (fault fault' : QueryFault) : Both related (.error fault) (.error fault')
  | succeeded {a : α} {b : β} (same : related a b) : Both related (.ok a) (.ok b)

variable {related : α → β → Prop} {next : γ → δ → Prop}

theorem Both.bind {x : Fallible α} {y : Fallible β} {f : α → Fallible γ} {g : β → Fallible δ}
    (first : Both related x y) (then_ : ∀ a b, related a b → Both next (f a) (g b)) :
    Both next (x >>= f) (y >>= g) := by
  cases first with
  | failed fault fault' => exact .failed fault fault'
  | succeeded same => exact then_ _ _ same

/-- The order of two computations does not matter for whether both succeed. -/
theorem Both.exchange {x : Fallible α} {y : Fallible β} {f : α → β → Fallible γ}
    {g : α → β → Fallible δ} (then_ : ∀ a b, Both next (f a b) (g a b)) :
    Both next (x >>= fun a => y >>= fun b => f a b) (y >>= fun b => x >>= fun a => g a b) := by
  cases x with
  | ok a =>
    cases y with
    | ok b => exact then_ a b
    | error fault => exact .failed fault fault
  | error fault =>
    cases y with
    | ok b => exact .failed fault fault
    | error fault' => exact .failed fault fault'

theorem Both.refl {related : α → α → Prop} (self : ∀ a, related a a) (x : Fallible α) :
    Both related x x := by
  cases x with
  | ok a => exact .succeeded (self a)
  | error fault => exact .failed fault fault

theorem Both.trans {related : α → α → Prop} {x y z : Fallible α}
    (compose : ∀ {a b c}, related a b → related b c → related a c)
    (first : Both related x y) (second : Both related y z) : Both related x z := by
  cases first with
  | failed fault fault' =>
    cases second with
    | failed _ fault'' => exact .failed fault fault''
  | succeeded same =>
    cases second with
    | succeeded later => exact .succeeded (compose same later)

theorem Both.isOk_iff {x : Fallible α} {y : Fallible β} (both : Both related x y) :
    (∃ a, x = .ok a) ↔ ∃ b, y = .ok b := by
  cases both with
  | failed fault fault' => exact iff_of_false nofun nofun
  | succeeded same => exact iff_of_true ⟨_, rfl⟩ ⟨_, rfl⟩

theorem Both.of_ok {a : α} {b : β} (both : Both related (.ok a) (.ok b)) : related a b := by
  cases both with
  | succeeded same => exact same

end Fallible

open Fallible

theorem DataType.comparable_comm (l r : DataType) : l.comparable r = r.comparable l := by
  cases l <;> cases r <;> rfl

/-! ### Filters -/

namespace Pushdown

theorem compile?_mirror (op : CompareOp) (left right : Expr) :
    compile? (.comparison op.mirror right left) = compile? (.comparison op left right) := by
  cases left with
  | literal value type =>
    cases right with
    | column c => rfl
    | literal value' type' => rfl
    | arithmetic op' operands => rfl
    | comparison op' l r => rfl
  | column c =>
    cases right with
    | literal value type =>
      show columnFilter? c op.mirror.mirror value = columnFilter? c op value
      rw [CompareOp.mirror_mirror]
    | column c' => rfl
    | arithmetic op' operands => rfl
    | comparison op' l r => rfl
  | arithmetic op' operands =>
    cases right <;> rfl
  | comparison op' l r =>
    cases right <;> rfl

/-- Only a comparison of two leaves becomes a filter. -/
theorem compile?_of_children (op : CompareOp) {left right : Expr}
    (inner : left.children ≠ [] ∨ right.children ≠ []) :
    compile? (.comparison op left right) = none := by
  rw [Option.eq_none_iff_forall_ne_some]
  intro filter compiled
  rcases compile?_eq_some compiled with ⟨_, _, _, _, same, _⟩ | ⟨_, _, _, _, same, _⟩
  · injection same with _ column literal
    rw [column, literal] at inner
    rcases inner with inner | inner <;> exact inner rfl
  · injection same with _ literal column
    rw [column, literal] at inner
    rcases inner with inner | inner <;> exact inner rfl

end Pushdown

/-! ### Equivalent expressions -/

namespace Expr

/-- Two expressions with the same type and width, the same results on all rows and the same filter.  A
leaf is equivalent to itself only, so that comparisons of equivalent operands become the same filter. -/
structure Equivalent (e e' : Expr) : Prop where
  signature : e.signature = e'.signature
  results : ∀ row value, e.evaluate row = .ok value ↔ e'.evaluate row = .ok value
  filter : Pushdown.compile? e = Pushdown.compile? e'
  leaf : e = e' ∨ e.children ≠ [] ∧ e'.children ≠ []

theorem Equivalent.refl (e : Expr) : Equivalent e e where
  signature := rfl
  results _ _ := Iff.rfl
  filter := rfl
  leaf := .inl rfl

theorem Equivalent.trans {e e' e'' : Expr} (first : Equivalent e e') (second : Equivalent e' e'') :
    Equivalent e e'' where
  signature := first.signature.trans second.signature
  results row value := (first.results row value).trans (second.results row value)
  filter := first.filter.trans second.filter
  leaf := by
    rcases first.leaf with same | ⟨inner, _⟩
    · rw [same]
      exact second.leaf
    · rcases second.leaf with same | ⟨_, inner'⟩
      · rw [← same]
        exact first.leaf
      · exact .inr ⟨inner, inner'⟩

theorem Equivalent.type? {e e' : Expr} (same : Equivalent e e') : e.type? = e'.type? :=
  congrArg Signature.type same.signature

/-- A predicate answers alike. -/
theorem Equivalent.predicate {e e' : Expr} (same : Equivalent e e') (row : Row) (b : Bool) :
    e.evaluatePredicate row = .ok b ↔ e'.evaluatePredicate row = .ok b := by
  rw [evaluatePredicate_eq_ok, evaluatePredicate_eq_ok, same.results, same.results]

/-! ### Nodes with equivalent operands -/

theorem evaluate_comparison_eq_ok {op : CompareOp} {left right : Expr} {row : Row} {value : Value} :
    (comparison op left right).evaluate row = .ok value ↔
      ∃ first, left.evaluate row = .ok first ∧ ∃ second, right.evaluate row = .ok second ∧
        op.evaluate first second = .ok value := by
  rw [evaluate_comparison, bind_eq_ok]
  simp only [bind_eq_ok]

theorem Equivalent.comparison (op : CompareOp) {left left' right right' : Expr}
    (first : Equivalent left left') (second : Equivalent right right') :
    Equivalent (.comparison op left right) (.comparison op left' right') where
  signature := by rw [Expr.signature, Expr.signature]
  results row value := by
    simp only [evaluate_comparison_eq_ok, first.results, second.results]
  filter := by
    rcases first.leaf with same | ⟨inner, inner'⟩
    · rcases second.leaf with same' | ⟨inner, inner'⟩
      · rw [same, same']
      · rw [Pushdown.compile?_of_children op (.inr inner), Pushdown.compile?_of_children op (.inr inner')]
    · rw [Pushdown.compile?_of_children op (.inl inner), Pushdown.compile?_of_children op (.inl inner')]
  leaf := .inr ⟨List.cons_ne_nil _ _, List.cons_ne_nil _ _⟩

theorem signatures_of_equivalent {operands operands' : List Expr}
    (each : List.Forall₂ Equivalent operands operands') :
    signatures operands = signatures operands' := by
  induction each with
  | nil => rfl
  | cons same _ ih => rw [signatures, signatures, same.signature, ih]

theorem evaluateAll_of_equivalent {operands operands' : List Expr}
    (each : List.Forall₂ Equivalent operands operands') (row : Row) (values : List Value) :
    evaluateAll row operands = .ok values ↔ evaluateAll row operands' = .ok values := by
  induction each generalizing values with
  | nil => exact Iff.rfl
  | cons same _ ih => simp only [evaluateAll, bind_eq_ok, same.results, ih]

theorem Equivalent.arithmetic (op : ArithmeticOp) {operands operands' : List Expr}
    (each : List.Forall₂ Equivalent operands operands') :
    Equivalent (.arithmetic op operands) (.arithmetic op operands') := by
  have known : (Expr.arithmetic op operands).signature = (Expr.arithmetic op operands').signature := by
    rw [Expr.signature, Expr.signature, signatures_of_equivalent each]
  refine ⟨known, ?_, rfl, ?_⟩
  · intro row value
    have typed := type?_arithmetic op operands
    have typed' := (congrArg Signature.type known).symm.trans typed
    rw [evaluate_arithmetic typed, evaluate_arithmetic typed', bind_eq_ok, bind_eq_ok, stepWidths,
      stepWidths, signatures_of_equivalent each]
    simp only [evaluateAll_of_equivalent each]
  · cases each with
    | nil => exact .inl rfl
    | cons _ _ => exact .inr ⟨List.cons_ne_nil _ _, List.cons_ne_nil _ _⟩

/-- A comparison is equivalent to its mirror image. -/
theorem equivalent_mirror (op : CompareOp) (left right : Expr) :
    Equivalent (comparison op left right) (comparison op.mirror right left) where
  signature := by rw [Expr.signature, Expr.signature]
  results row value := by
    rw [evaluate_comparison_eq_ok, evaluate_comparison_eq_ok]
    constructor
    · rintro ⟨first, found, second, found', answer⟩
      exact ⟨second, found', first, found, CompareOp.evaluate_mirror answer⟩
    · rintro ⟨second, found', first, found, answer⟩
      have back := CompareOp.evaluate_mirror answer
      rw [CompareOp.mirror_mirror] at back
      exact ⟨first, found, second, found', back⟩
  filter := (Pushdown.compile?_mirror op left right).symm
  leaf := .inr ⟨List.cons_ne_nil _ _, List.cons_ne_nil _ _⟩

/-! ### The checks of the constructors -/

theorem both_checkNumeric {e e' : Expr} (same : Equivalent e e') :
    Both (fun _ _ => True) (checkNumeric e) (checkNumeric e') := by
  rw [checkNumeric, checkNumeric, same.type?]
  cases e'.type? with
  | none => exact .succeeded trivial
  | some type =>
    by_cases numeric : type.isNumeric = true
    · simp only [if_pos numeric]
      exact .succeeded trivial
    · simp only [if_neg numeric]
      exact .failed _ _

theorem both_checkAllNumeric {operands operands' : List Expr}
    (each : List.Forall₂ Equivalent operands operands') :
    Both (fun _ _ => True) (checkAllNumeric operands) (checkAllNumeric operands') := by
  induction each with
  | nil => exact .succeeded trivial
  | cons same _ ih => exact (both_checkNumeric same).bind fun _ _ _ => ih

theorem both_ofArithmetic (op : ArithmeticOp) {operands operands' : List Expr}
    (each : List.Forall₂ Equivalent operands operands') :
    Both Equivalent (ofArithmetic op operands) (ofArithmetic op operands') := by
  rw [ofArithmetic, ofArithmetic, each.length_eq]
  by_cases few : operands'.length < 2
  · rw [if_pos few, if_pos few]
    exact .failed _ _
  · rw [if_neg few, if_neg few]
    exact (both_checkAllNumeric each).bind fun _ _ _ => .succeeded (.arithmetic op each)

/-- Whether operands of these types may be compared; one without a type is let through. -/
def typesCompare : Option DataType → Option DataType → Bool
  | some l, some r => l.comparable r
  | _, _ => true

theorem typesCompare_comm (l r : Option DataType) : typesCompare l r = typesCompare r l := by
  cases l with
  | none => cases r <;> rfl
  | some l =>
    cases r with
    | none => rfl
    | some r => exact DataType.comparable_comm l r

theorem ofComparison_of_typesCompare (op : CompareOp) {left right : Expr}
    (fit : typesCompare left.type? right.type? = true) :
    ofComparison op left right = .ok (comparison op left right) := by
  rw [ofComparison]
  cases known : left.type? with
  | none => rfl
  | some l =>
    cases known' : right.type? with
    | none => rfl
    | some r =>
      rw [known, known'] at fit
      exact if_pos fit

theorem ofComparison_of_not_typesCompare (op : CompareOp) {left right : Expr}
    (unfit : typesCompare left.type? right.type? = false) :
    ∃ fault, ofComparison op left right = .error fault := by
  rw [ofComparison]
  cases known : left.type? with
  | none =>
    rw [known] at unfit
    cases unfit
  | some l =>
    cases known' : right.type? with
    | none =>
      rw [known, known'] at unfit
      cases unfit
    | some r =>
      rw [known, known'] at unfit
      exact ⟨_, if_neg (Bool.eq_false_iff.mp unfit)⟩

theorem both_ofComparison {op op' : CompareOp} {left left' right right' : Expr}
    (node : Equivalent (comparison op left right) (comparison op' left' right'))
    (types : typesCompare left.type? right.type? = typesCompare left'.type? right'.type?) :
    Both Equivalent (ofComparison op left right) (ofComparison op' left' right') := by
  cases fit : typesCompare left.type? right.type? with
  | true =>
    rw [ofComparison_of_typesCompare op fit, ofComparison_of_typesCompare op' (types.symm.trans fit)]
    exact .succeeded node
  | false =>
    obtain ⟨fault, refused⟩ := ofComparison_of_not_typesCompare op fit
    obtain ⟨fault', refused'⟩ := ofComparison_of_not_typesCompare op' (types.symm.trans fit)
    rw [refused, refused']
    exact .failed fault fault'

end Expr

namespace Surface

/-- An expression and the one with its root exchanged are both bound to equivalent expressions, or
neither is bound. -/
theorem both_bind_swap (s : Surface) : Both Expr.Equivalent s.bind s.swap.bind := by
  cases s with
  | literal value => exact .refl Expr.Equivalent.refl (literal value).bind
  | column c => exact .refl Expr.Equivalent.refl (column c).bind
  | arithmetic op operands => exact .refl Expr.Equivalent.refl (arithmetic op operands).bind
  | comparison op left right =>
    rw [swap, bind, bind]
    exact .exchange fun first second => Expr.both_ofComparison
      (Expr.equivalent_mirror op first second) (Expr.typesCompare_comm _ _)

/-! ### Marked comparisons -/

/-- A surface expression with some of its comparisons marked. -/
inductive Marked where
  | literal (value : Value)
  | column (column : Column)
  | arithmetic (op : ArithmeticOp) (operands : List Marked)
  | comparison (marked : Bool) (op : CompareOp) (left right : Marked)

namespace Marked

theorem induction {motive : Marked → Prop}
    (literal : ∀ value, motive (literal value))
    (column : ∀ c, motive (column c))
    (arithmetic : ∀ op operands, (∀ operand ∈ operands, motive operand) →
      motive (arithmetic op operands))
    (comparison : ∀ marked op left right, motive left → motive right →
      motive (comparison marked op left right))
    (m : Marked) : motive m :=
  @Marked.rec motive (fun operands => ∀ operand ∈ operands, motive operand) literal column arithmetic
    comparison (fun _ member => absurd member List.not_mem_nil)
    (fun _ _ first others => List.forall_mem_cons.mpr ⟨first, others⟩) m

mutual

/-- The expression without its marks. -/
def tree : Marked → Surface
  | literal value => .literal value
  | column c => .column c
  | arithmetic op operands => .arithmetic op (trees operands)
  | comparison _ op left right => .comparison op (tree left) (tree right)

/-- Some expressions without their marks. -/
def trees : List Marked → List Surface
  | [] => []
  | m :: rest => tree m :: trees rest

end

mutual

/-- The expression in which all marked comparisons have exchanged their operands. -/
def swapped : Marked → Surface
  | literal value => .literal value
  | column c => .column c
  | arithmetic op operands => .arithmetic op (swappedAll operands)
  | comparison true op left right => (Surface.comparison op (swapped left) (swapped right)).swap
  | comparison false op left right => .comparison op (swapped left) (swapped right)

/-- Some expressions in which all marked comparisons have exchanged their operands. -/
def swappedAll : List Marked → List Surface
  | [] => []
  | m :: rest => swapped m :: swappedAll rest

end

mutual

/-- The exchanged expression with the same comparisons marked, which have moved along with the operands
that they are in. -/
def exchange : Marked → Marked
  | literal value => literal value
  | column c => column c
  | arithmetic op operands => arithmetic op (exchangeAll operands)
  | comparison true op left right => comparison true op.mirror (exchange right) (exchange left)
  | comparison false op left right => comparison false op (exchange left) (exchange right)

/-- Some exchanged expressions with the same comparisons marked. -/
def exchangeAll : List Marked → List Marked
  | [] => []
  | m :: rest => exchange m :: exchangeAll rest

end

theorem trees_eq_map (operands : List Marked) : trees operands = operands.map tree := by
  induction operands with
  | nil => rfl
  | cons m rest ih => rw [trees, ih, List.map_cons]

theorem swappedAll_eq_map (operands : List Marked) : swappedAll operands = operands.map swapped := by
  induction operands with
  | nil => rfl
  | cons m rest ih => rw [swappedAll, ih, List.map_cons]

theorem exchangeAll_eq_map (operands : List Marked) :
    exchangeAll operands = operands.map exchange := by
  induction operands with
  | nil => rfl
  | cons m rest ih => rw [exchangeAll, ih, List.map_cons]

theorem tree_exchange (m : Marked) : m.exchange.tree = m.swapped := by
  induction m using induction with
  | literal value => rfl
  | column c => rfl
  | arithmetic op operands ih =>
    rw [exchange, tree, swapped, trees_eq_map, exchangeAll_eq_map, swappedAll_eq_map, List.map_map]
    exact congrArg _ (List.map_congr_left ih)
  | comparison marked op left right first second =>
    cases marked with
    | true => rw [exchange, tree, swapped, swap, first, second]
    | false => rw [exchange, tree, swapped, first, second]

theorem swapped_exchange (m : Marked) : m.exchange.swapped = m.tree := by
  induction m using induction with
  | literal value => rfl
  | column c => rfl
  | arithmetic op operands ih =>
    rw [exchange, tree, swapped, trees_eq_map, exchangeAll_eq_map, swappedAll_eq_map, List.map_map]
    exact congrArg _ (List.map_congr_left ih)
  | comparison marked op left right first second =>
    cases marked with
    | true => rw [exchange, tree, swapped, swap, CompareOp.mirror_mirror, first, second]
    | false => rw [exchange, tree, swapped, first, second]

theorem both_bindAll {operands : List Marked}
    (each : ∀ m ∈ operands, Both Expr.Equivalent m.tree.bind m.swapped.bind) :
    Both (List.Forall₂ Expr.Equivalent) (bindAll (trees operands)) (bindAll (swappedAll operands)) := by
  induction operands with
  | nil => exact .succeeded .nil
  | cons m rest ih =>
    obtain ⟨first, others⟩ := List.forall_mem_cons.mp each
    rw [trees, swappedAll, bindAll, bindAll]
    refine first.bind fun e e' same => ?_
    exact (ih others).bind fun bound bound' equivalent => .succeeded (.cons same equivalent)

/-- An expression and the one with all marked comparisons exchanged are both bound to equivalent
expressions, or neither is bound. -/
theorem both_bind (m : Marked) : Both Expr.Equivalent m.tree.bind m.swapped.bind := by
  induction m using induction with
  | literal value => exact .refl Expr.Equivalent.refl (Surface.literal value).bind
  | column c => exact .refl Expr.Equivalent.refl (Surface.column c).bind
  | arithmetic op operands ih =>
    rw [tree, swapped, bind, bind]
    exact (both_bindAll ih).bind fun bound bound' each => Expr.both_ofArithmetic op each
  | comparison marked op left right first second =>
    -- the operands first, and then the node itself
    have inside : Both Expr.Equivalent (Surface.comparison op left.tree right.tree).bind
        (Surface.comparison op left.swapped right.swapped).bind := by
      rw [bind, bind]
      refine first.bind fun l l' sameLeft => ?_
      refine second.bind fun r r' sameRight => ?_
      have types : Expr.typesCompare l.type? r.type? = Expr.typesCompare l'.type? r'.type? := by
        rw [sameLeft.type?, sameRight.type?]
      exact Expr.both_ofComparison (.comparison op sameLeft sameRight) types
    cases marked with
    | true =>
      rw [tree, swapped]
      exact inside.trans Expr.Equivalent.trans (both_bind_swap _)
    | false =>
      rw [tree, swapped]
      exact inside

/-- **Exchanging operands keeps the meaning.**  Whichever comparisons of an expression exchange their
operands, the result can be bound just if the expression can.  The two bound expressions give the same
values on the same rows, answer alike as predicates and become the same filter, and exchanging the same
comparisons once more gives the expression back. -/
theorem swapped_keeps_meaning (m : Marked) :
    ((∃ e, m.tree.bind = .ok e) ↔ ∃ e, m.swapped.bind = .ok e) ∧
    (∀ e e', m.tree.bind = .ok e → m.swapped.bind = .ok e' →
      (∀ row value, e.evaluate row = .ok value ↔ e'.evaluate row = .ok value) ∧
      (∀ row b, e.evaluatePredicate row = .ok b ↔ e'.evaluatePredicate row = .ok b) ∧
      Pushdown.compile? e = Pushdown.compile? e') ∧
    m.exchange.tree = m.swapped ∧ m.exchange.swapped = m.tree := by
  have both := both_bind m
  refine ⟨both.isOk_iff, ?_, tree_exchange m, swapped_exchange m⟩
  intro e e' bound bound'
  rw [bound, bound'] at both
  have same := both.of_ok
  exact ⟨same.results, same.predicate, same.filter⟩

/-- The comparison `("a" < f:q) = ("c" > "b")`, with the outer and the left one marked. -/
def nested : Marked :=
  .comparison true .equal
    (.comparison true .less (.literal (.text "a")) (.column ⟨[102], [113], .varchar⟩))
    (.comparison false .greater (.literal (.text "c")) (.literal (.text "b")))

theorem swapped_keeps_meaning_nested :
    ∃ e e', nested.tree.bind = .ok e ∧ nested.swapped.bind = .ok e' ∧
      ∀ row b, e.evaluatePredicate row = .ok b ↔ e'.evaluatePredicate row = .ok b := by
  obtain ⟨bound, meaning, _⟩ := swapped_keeps_meaning nested
  obtain ⟨e, made⟩ : ∃ e, nested.tree.bind = .ok e := ⟨_, rfl⟩
  obtain ⟨e', made'⟩ := bound.mp ⟨e, made⟩
  exact ⟨e, e', made, made', (meaning e e' made made').2.1⟩

end Marked

end Surface

end WideRow
