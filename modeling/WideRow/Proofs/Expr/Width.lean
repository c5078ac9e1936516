import WideRow.Proofs.Expr.Columns
import WideRow.Proofs.Expr.IntegerFold
import WideRow.Proofs.Expr.Typing
import WideRow.Proofs.Value.Width

/-!
# Widths describe values

The width of an expression of exact numeric type limits its values.  A literal and a column fit the width
of their type, and the last step of decimal arithmetic brings the result to the width or overflows.
Integer arithmetic is limited by 64 bits only.  A step of it goes beyond its width only where the width
has been cut to fewer digits than an integer can have (`CutBelow`).

* `Arithmetic.holds_foldInteger`: the fold over integers, step by step.
* `Expr.fits_of_evaluate`: the induction over the expression.
* `Expr.width_describes_values`: the result for the nodes of built expressions.
-/

namespace WideRow

open Fallible

/-! ### Widths of folds -/

theorem Width.ordered_foldl {op : ArithmeticOp} {folded : Width} {operands : List Width}
    (start : folded.Ordered) (each : ∀ width ∈ operands, width.Ordered) :
    (operands.foldl (Width.combine op) folded).Ordered := by
  induction operands generalizing folded with
  | nil => exact start
  | cons next rest ih =>
    refine ih ?_ ?_
    · exact Width.ordered_combine start (each next List.mem_cons_self)
    · intro width member
      exact each width (List.mem_cons_of_mem _ member)

theorem Expr.lastWidth_steps (op : ArithmeticOp) (first next : Width) (rest : List Width) :
    lastWidth (Width.steps op first (next :: rest)) =
      (next :: rest).foldl (Width.combine op) first := by
  induction rest generalizing first next with
  | nil => rfl
  | cons other rest ih =>
    rw [List.foldl_cons, ← ih (Width.combine op first next) other]
    show ((_ :: _ :: _ : List Width).getLast?).getD _ = ((_ :: _ : List Width).getLast?).getD _
    rw [List.getLast?_cons_cons]

namespace Arithmetic

theorem integerOperand_eq_ok {value : Value} {n : Signed 64}
    (answer : integerOperand value = .ok n) : value = .integer n := by
  simp only [integerOperand] at answer
  split at answer
  · injection answer with same
    rw [same]
  · cases answer

theorem integers_of_foldInteger {op : ArithmeticOp} {m result : Signed 64} {values : List Value}
    (answer : foldInteger op m values = .ok result) : ∀ value ∈ values, ∃ n, value = .integer n := by
  induction values generalizing m with
  | nil => exact List.forall_mem_nil _
  | cons first rest ih =>
    obtain ⟨n, integer, answer⟩ := bind_eq_ok.mp answer
    obtain ⟨next, _, answer⟩ := bind_eq_ok.mp answer
    exact List.forall_mem_cons.mpr ⟨⟨n, integerOperand_eq_ok integer⟩, ih answer⟩

theorem integers_of_onIntegers {op : ArithmeticOp} {value : Value} {values : List Value}
    (answer : onIntegers op values = .ok value) : ∀ operand ∈ values, ∃ n, operand = .integer n := by
  cases values with
  | nil => exact List.forall_mem_nil _
  | cons first rest =>
    obtain ⟨m, integer, answer⟩ := bind_eq_ok.mp answer
    obtain ⟨result, folded, _⟩ := bind_eq_ok.mp answer
    have first := integerOperand_eq_ok integer
    exact List.forall_mem_cons.mpr ⟨⟨m, first⟩, integers_of_foldInteger folded⟩

/-- At some step of a fold over integers the width is cut, and to less than the result of the step. -/
inductive CutBelow (op : ArithmeticOp) : Width → Signed 64 → List Width → List Value → Prop
  | now {folded next : Width} {m n result : Signed 64} {widths : List Width} {values : List Value}
      (step : integerStep op m n = .ok result) (cut : ¬ Width.KeepsWhole op folded next)
      (beyond : ¬ (Width.combine op folded next).Holds result.val) :
      CutBelow op folded m (next :: widths) (.integer n :: values)
  | later {folded next : Width} {m n result : Signed 64} {widths : List Width} {values : List Value}
      (step : integerStep op m n = .ok result)
      (rest : CutBelow op (Width.combine op folded next) result widths values) :
      CutBelow op folded m (next :: widths) (.integer n :: values)

/-- The width of an operand describes its value. -/
def Describes (width : Width) (value : Value) : Prop :=
  width.Ordered ∧ value.Fits width

/-- A fold over integers stays within the width that is folded along with it, unless that is cut. -/
theorem holds_foldInteger {op : ArithmeticOp} {folded : Width} {widths : List Width}
    {m result : Signed 64} {values : List Value} (ordered : folded.Ordered)
    (held : folded.Holds m.val) (operands : List.Forall₂ Describes widths values)
    (answer : foldInteger op m values = .ok result) :
    (widths.foldl (Width.combine op) folded).Holds result.val ∨
      CutBelow op folded m widths values := by
  induction operands generalizing folded m with
  | nil =>
    injection answer with same
    rw [← same]
    exact .inl held
  | @cons width value widths values described _ ih =>
    obtain ⟨n, integer, answer⟩ := bind_eq_ok.mp answer
    obtain ⟨next, step, answer⟩ := bind_eq_ok.mp answer
    obtain ⟨nextOrdered, fits⟩ := described
    rw [integerOperand_eq_ok integer] at fits ⊢
    obtain ⟨_, exact_⟩ := integerStep_eq_ok.mp step
    have nextHeld := Value.fits_integer.mp fits
    by_cases within : (Width.combine op folded width).Holds next.val
    · rcases ih (Width.ordered_combine ordered nextOrdered) within answer with holds | cut
      · exact .inl holds
      · exact .inr (.later step cut)
    · refine .inr (.now step ?_ within)
      intro keeps
      exact within (Width.holds_combine ordered nextOrdered held nextHeld exact_ keeps)

/-- Arithmetic on integers stays within the width of its last step, unless a step is cut. -/
theorem fits_onIntegers {op : ArithmeticOp} {widths : List Width} {values : List Value}
    {value : Value} (operands : List.Forall₂ Describes widths values)
    (answer : onIntegers op values = .ok value) (present : value ≠ .null) :
    value.Fits (Expr.lastWidth (Expr.stepsOf op widths)) ∨
      ∃ first rest m others, widths = first :: rest ∧ values = .integer m :: others ∧
        CutBelow op first m rest others := by
  cases operands with
  | nil =>
    injection answer with same
    exact absurd same.symm present
  | @cons first start rest others described operands =>
    obtain ⟨m, integer, answer⟩ := bind_eq_ok.mp answer
    obtain ⟨result, folded, same⟩ := bind_eq_ok.mp answer
    injection same with same
    obtain ⟨ordered, fits⟩ := described
    rw [integerOperand_eq_ok integer] at fits ⊢
    rw [← same, Value.fits_integer]
    cases operands with
    | nil => exact .inl nofun
    | @cons next _ rest _ nextDescribed operands =>
      have held := Value.fits_integer.mp fits
      rw [Expr.stepsOf, Expr.lastWidth_steps]
      rcases holds_foldInteger ordered held (.cons nextDescribed operands) folded with holds | cut
      · exact .inl holds
      · exact .inr ⟨first, next :: rest, m, _, rfl, rfl, cut⟩

theorem fitToWidth_eq_ok {folded result : Partial} {digits scale : Nat}
    (answer : fitToWidth (Width.fixed digits scale) folded = .ok result) :
    result.scale = scale ∧ result.unscaled.val.natAbs < Decimal.tenTo digits := by
  obtain ⟨rescaled, _, answer⟩ := bind_eq_ok.mp answer
  obtain ⟨_, checked, same⟩ := bind_eq_ok.mp answer
  injection same with same
  rw [← same]
  exact ⟨rfl, Decimal.lt_of_checkDigits (ofNumeric_eq_ok.mp checked)⟩

/-- Arithmetic on decimals gives what fits the width of its last step, or overflows. -/
theorem fits_onDecimals {op : ArithmeticOp} {steps : List Width} {values : List Value}
    {value : Value} (answer : onDecimals op steps values = .ok value) (present : value ≠ .null) :
    value.Fits (Expr.lastWidth steps) := by
  cases values with
  | nil =>
    injection answer with same
    exact absurd same.symm present
  | cons first rest =>
    obtain ⟨start, _, answer⟩ := bind_eq_ok.mp answer
    obtain ⟨folded, _, answer⟩ := bind_eq_ok.mp answer
    obtain ⟨result, fitted, same⟩ := bind_eq_ok.mp answer
    injection same with same
    intro digits scale width
    rw [width] at fitted
    obtain ⟨place, small⟩ := fitToWidth_eq_ok fitted
    rw [← same, place]
    exact Value.fits_decimal small digits scale rfl

end Arithmetic

namespace Expr

theorem arithmeticType_cases (known : List Signature) (width : Width) :
    arithmeticType known width = .double ∨
      arithmeticType known width = .decimal width.digits width.scale ∨
      arithmeticType known width = .bigInt := by
  simp only [arithmeticType]
  split
  · exact .inl rfl
  · split
    · exact .inr (.inl rfl)
    · exact .inr (.inr rfl)

/-- The types of columns and literals have scales within their precisions. -/
def WellScaled (e : Expr) : Prop :=
  (∀ c, Within (column c) e → c.type.WellScaled) ∧
    ∀ value type, Within (literal value (some type)) e → type.WellScaled

theorem WellScaled.of_within {part whole : Expr} (scaled : WellScaled whole)
    (inside : Within part whole) : WellScaled part := by
  constructor
  · intro c column
    exact scaled.1 c (column.trans inside)
  · intro value type literal
    exact scaled.2 value type (literal.trans inside)

theorem WellScaled.ordered_width {e : Expr} (scaled : WellScaled e) : e.width.Ordered := by
  induction e with
  | literal value type =>
    cases type with
    | none => exact nofun
    | some type => exact (scaled.2 value type .self).ordered
  | column c => exact (scaled.1 c .self).ordered
  | arithmetic op operands ih =>
    have each : ∀ limit ∈ operands.map width, limit.Ordered := by
      intro limit member
      obtain ⟨operand, among, same⟩ := List.mem_map.mp member
      rw [← same]
      exact ih operand among (scaled.of_within (.operand among .self))
    rw [width_arithmetic, stepWidths_eq_stepsOf]
    cases widths : operands.map width with
    | nil => exact nofun
    | cons first rest =>
      rw [widths, List.forall_mem_cons] at each
      cases rest with
      | nil => exact nofun
      | cons next rest =>
        rw [stepsOf, lastWidth_steps]
        exact Width.ordered_foldl each.1 each.2
  | comparison op left right => exact nofun

/-- On this row, a step of integer arithmetic has its width cut below its result: at this node, or at a
node from which integers reach it through integer arithmetic alone. -/
inductive CutsDigits (row : Row) : Expr → Prop
  | here {op : ArithmeticOp} {first : Expr} {rest : List Expr} {m : Signed 64} {values : List Value}
      (integers : (arithmetic op (first :: rest)).type? = some .bigInt)
      (answers : evaluateAll row (first :: rest) = .ok (.integer m :: values))
      (cut : Arithmetic.CutBelow op first.width m (rest.map width) values) :
      CutsDigits row (arithmetic op (first :: rest))
  | operand {op : ArithmeticOp} {operands : List Expr} {operand : Expr}
      (integers : (arithmetic op operands).type? = some .bigInt) (member : operand ∈ operands)
      (inside : CutsDigits row operand) : CutsDigits row (arithmetic op operands)

theorem exact_of_inhabits {n : Signed 64} {type? : Option DataType}
    (inhabits : Value.Inhabits (.integer n) type?) :
    ∃ type, type? = some type ∧ type.isExact = true := by
  obtain ⟨type, declared, typed⟩ := inhabits.hasType rfl
  refine ⟨type, declared, ?_⟩
  cases typed with
  | integer n => rfl
  | bigInt n => rfl

/-- The operands of integer arithmetic are integers, so the hypotheses on exact operands apply. -/
theorem describes_operands {operands : List Expr} {row : Row} {values : List Value}
    (typed : ∀ operand ∈ operands, WellTyped operand)
    (scaled : ∀ operand ∈ operands, WellScaled operand)
    (fits : ∀ operand ∈ operands, ∀ type, operand.type? = some type → type.isExact = true →
      ∀ value, operand.evaluate row = .ok value → value ≠ .null → value.Fits operand.width)
    (answers : evaluateAll row operands = .ok values)
    (integers : ∀ value ∈ values, ∃ n, value = .integer n) :
    List.Forall₂ Arithmetic.Describes (operands.map width) values := by
  rw [List.forall₂_map_left_iff]
  have each := evaluateAll_eq_ok.mp answers
  clear answers
  induction each with
  | nil => exact .nil
  | @cons e value rest others answer _ ih =>
    rw [List.forall_mem_cons] at typed scaled fits integers
    refine .cons ?_ (ih typed.2 scaled.2 fits.2 integers.2)
    obtain ⟨n, same⟩ := integers.1
    have inhabits := (meets_evaluate typed.1 row).of_ok answer
    rw [same] at inhabits
    obtain ⟨type, declared, exact_⟩ := exact_of_inhabits inhabits
    refine ⟨scaled.1.ordered_width, fits.1 type declared exact_ value answer ?_⟩
    rw [same]
    exact nofun

theorem fits_of_read {c : Column} {row : Row} (stored : c.StoredIn row) (scaled : c.type.WellScaled)
    {value : Value} (answer : c.read row = .ok value) (present : value ≠ .null) :
    value.Fits c.type.width := by
  rcases Column.read_of_storedIn stored answer with ⟨_, missing⟩ | ⟨_, held, _, kept, _, same⟩
  · exact absurd missing present
  · rw [same]
    exact Value.fits_of_held kept.stored scaled

theorem fits_of_integers {op : ArithmeticOp} {operands : List Expr} {row : Row}
    {values : List Value} {value : Value}
    (integers : (arithmetic op operands).type? = some .bigInt)
    (answers : evaluateAll row operands = .ok values)
    (described : List.Forall₂ Arithmetic.Describes (operands.map width) values)
    (answer : Arithmetic.onIntegers op values = .ok value) (present : value ≠ .null) :
    value.Fits (arithmetic op operands).width ∨ CutsDigits row (arithmetic op operands) := by
  rw [width_arithmetic, stepWidths_eq_stepsOf]
  rcases Arithmetic.fits_onIntegers described answer present with fits | cut
  · exact .inl fits
  · obtain ⟨limit, limits, m, others, widths, same, cut⟩ := cut
    obtain ⟨first, rest, operandsSame, firstSame, restSame⟩ := List.map_eq_cons_iff.mp widths
    rw [← firstSame, ← restSame] at cut
    rw [operandsSame] at integers answers ⊢
    rw [same] at answers
    exact .inr (.here integers answers cut)

/-- What arithmetic of exact type gives, from what is known of its operands. -/
theorem fits_of_arithmetic {op : ArithmeticOp} {operands : List Expr} {row : Row}
    (described : (∃ operand ∈ operands, CutsDigits row operand) ∨
      ∀ values, evaluateAll row operands = .ok values →
        (∀ value ∈ values, ∃ n, value = .integer n) →
          List.Forall₂ Arithmetic.Describes (operands.map width) values)
    {type : DataType} (declared : (arithmetic op operands).type? = some type)
    (exact_ : type.isExact = true) {value : Value}
    (answer : (arithmetic op operands).evaluate row = .ok value) (present : value ≠ .null) :
    value.Fits (arithmetic op operands).width ∨ CutsDigits row (arithmetic op operands) := by
  have known := declared
  rw [evaluate_arithmetic declared] at answer
  obtain ⟨values, answers, answer⟩ := bind_eq_ok.mp answer
  by_cases missing : values.any Value.isNull = true
  · rw [Arithmetic.evaluate_of_missing missing] at answer
    injection answer with same
    exact absurd same.symm present
  have nonnull := Bool.eq_false_iff.mpr missing
  rw [type?_arithmetic, Option.some.injEq] at known
  rcases arithmeticType_cases (operands.map signature) (arithmetic op operands).width with
    double | decimal | bigInt
  · rw [← known, double] at exact_
    cases exact_
  · rw [← known, decimal, Arithmetic.evaluate_decimal nonnull] at answer
    rw [width_arithmetic]
    exact .inl (Arithmetic.fits_onDecimals answer present)
  · rw [← known, bigInt] at declared
    rw [← known, bigInt, Arithmetic.evaluate_bigInt nonnull] at answer
    rcases described with ⟨operand, member, cut⟩ | described
    · exact .inr (.operand declared member cut)
    · have integers := Arithmetic.integers_of_onIntegers answer
      exact fits_of_integers declared answers (described values answers integers) answer present

/-- A value of exact type fits the width of its expression, unless a step of integer arithmetic has been
cut below its result. -/
theorem fits_of_evaluate {e : Expr} (typed : WellTyped e) (scaled : WellScaled e) {row : Row}
    (stored : ∀ c, Within (column c) e → c.StoredIn row) {type : DataType}
    (declared : e.type? = some type) (exact_ : type.isExact = true) {value : Value}
    (answer : e.evaluate row = .ok value) (present : value ≠ .null) :
    value.Fits e.width ∨ CutsDigits row e := by
  induction typed generalizing type value with
  | @literal held known made =>
    rw [type?_literal] at declared
    rw [evaluate_literal] at answer
    injection answer with same
    rw [← same] at present ⊢
    cases declared
    exact .inl (made.fits rfl (scaled.2 held type .self) present)
  | column c =>
    rw [evaluate_column] at answer
    exact .inl (fits_of_read (stored c .self) (scaled.1 c .self) answer present)
  | @arithmetic op operands numeric typed ih =>
    have within : ∀ operand ∈ operands, Within operand (.arithmetic op operands) :=
      fun operand member => .operand member .self
    have parts : ∀ operand ∈ operands, WellScaled operand :=
      fun operand member => scaled.of_within (within operand member)
    refine fits_of_arithmetic ?_ declared exact_ answer present
    by_cases cut : ∃ operand ∈ operands, CutsDigits row operand
    · exact .inl cut
    refine .inr fun values answers => describes_operands typed parts ?_ answers
    intro operand member known declared exact_ value answer present
    have columns : ∀ c, Within (.column c) operand → c.StoredIn row :=
      fun c inside => stored c (inside.trans (within operand member))
    rcases ih operand member (parts operand member) columns declared exact_ answer present with
      fits | inside
    · exact fits
    · exact absurd ⟨operand, member, inside⟩ cut
  | comparison op comparable first second ihFirst ihSecond =>
    cases declared
    cases exact_

theorem WellTyped.of_within {part whole : Expr} (typed : WellTyped whole)
    (inside : Within part whole) : WellTyped part := by
  induction inside with
  | self => exact typed
  | operand member _ ih =>
    cases typed with
    | arithmetic _ _ each => exact ih (each _ member)
  | left _ ih =>
    cases typed with
    | comparison _ _ first _ => exact ih first
  | right _ ih =>
    cases typed with
    | comparison _ _ _ second => exact ih second

/-- **Widths describe values.**  Take any node of exact numeric type of a built expression whose columns
and literals are of well-scaled types, and a row that lacks or stores the columns.  If the width of the
node has both fields, its value, unless missing, has no larger scale and at that scale no more digits.
The exception is integer arithmetic where a step was cut below its result. -/
theorem width_describes_values {e node : Expr} (built : Built e) (scaled : WellScaled e)
    {row : Row} (stored : ∀ c ∈ e.referencedColumns, c.StoredIn row) (inside : Within node e)
    {type : DataType} (declared : node.type? = some type) (exact_ : type.isExact = true)
    {digits scale : Nat} (limit : node.width = Width.fixed digits scale) {value : Value}
    (answer : node.evaluate row = .ok value) (present : value ≠ .null) :
    (∃ u s, value.fixedPoint? = some (u, s) ∧ s ≤ scale ∧
      u.val.natAbs * 10 ^ (scale - s) < 10 ^ digits) ∨ CutsDigits row node := by
  have columns : ∀ c, Within (column c) node → c.StoredIn row :=
    fun c member => stored c (mem_referencedColumns.mpr (member.trans inside))
  have fits := fits_of_evaluate (built.wellTyped.of_within inside) (scaled.of_within inside) columns
    declared exact_ answer present
  rcases fits with fits | cut
  · exact .inl (fits digits scale limit)
  · exact .inr cut

theorem built_integer {n : Signed 64} (low : -(Signed.half 32 : Int) ≤ n.val)
    (high : n.val < (Signed.half 32 : Int)) : Built (literal (.integer n) (some .integer)) := by
  have narrow : (Value.integer n).naturalType? = some .integer := by
    have held : Signed.ofInt? 32 n.val = some ⟨n.val, low, high⟩ := dif_pos ⟨low, high⟩
    show (if (Signed.ofInt? 32 n.val).isSome then some DataType.integer else some .bigInt) = _
    rw [held]
    rfl
  rw [← narrow]
  refine .value ?_
  intro u s same
  cases same

theorem WellScaled.column {c : Column} (scaled : c.type.WellScaled) : WellScaled (.column c) := by
  constructor
  · intro other inside
    cases inside
    exact scaled
  · intro value type inside
    cases inside

theorem WellScaled.integer (n : Signed 64) :
    WellScaled (.literal (.integer n) (some .integer)) := by
  constructor
  · intro c inside
    cases inside
  · intro value type inside
    cases inside
    exact nofun

theorem WellScaled.arithmetic {op : ArithmeticOp} {operands : List Expr}
    (each : ∀ operand ∈ operands, WellScaled operand) : WellScaled (.arithmetic op operands) := by
  constructor
  · intro c inside
    cases inside with
    | operand member inside => exact (each _ member).1 c inside
  · intro value type inside
    cases inside with
    | operand member inside => exact (each _ member).2 value type inside

/-- A quotient of two integers. -/
def integerQuotient (m n : Signed 64) : Expr :=
  arithmetic .divide [literal (.integer m) (some .integer), literal (.integer n) (some .integer)]

theorem built_integerQuotient {m n : Signed 64} (first : Built (literal (.integer m) (some .integer)))
    (second : Built (literal (.integer n) (some .integer))) : Built (integerQuotient m n) := by
  have made : ofArithmetic .divide [literal (.integer m) (some .integer),
      literal (.integer n) (some .integer)] = .ok (integerQuotient m n) := rfl
  refine .arithmetic ?_ made
  exact List.forall_mem_cons.mpr ⟨first, List.forall_mem_singleton.mpr second⟩

theorem wellScaled_integerQuotient (m n : Signed 64) : WellScaled (integerQuotient m n) := by
  refine .arithmetic ?_
  exact List.forall_mem_cons.mpr ⟨.integer m, List.forall_mem_singleton.mpr (.integer n)⟩

/-- The integer of the column `f:q`, divided by two. -/
def halvedColumn : Expr :=
  arithmetic .divide
    [column ⟨[102], [113], .integer⟩,
      literal (.integer ⟨2, by decide, by decide⟩) (some .integer)]

theorem width_describes_values_quotient :
    halvedColumn.width = Width.fixed 38 28 ∧
      (∀ c ∈ halvedColumn.referencedColumns, c.StoredIn (rowOfCell [128, 0, 0, 7])) ∧
      halvedColumn.evaluate (rowOfCell [128, 0, 0, 7]) =
        .ok (.integer ⟨3, by decide, by decide⟩) ∧
      ∃ u s, (Value.integer ⟨3, by decide, by decide⟩).fixedPoint? = some (u, s) ∧ s ≤ 28 ∧
        u.val.natAbs * 10 ^ (28 - s) < 10 ^ 38 := by
  have two := built_integer (n := ⟨2, by decide, by decide⟩) (by decide) (by decide)
  have made : ofArithmetic .divide halvedColumn.children = .ok halvedColumn := rfl
  have built : Built halvedColumn :=
    .arithmetic (List.forall_mem_cons.mpr ⟨.column _, List.forall_mem_singleton.mpr two⟩) made
  have scaled : WellScaled halvedColumn :=
    .arithmetic (List.forall_mem_cons.mpr ⟨.column nofun, List.forall_mem_singleton.mpr (.integer _)⟩)
  have stored : ∀ c ∈ halvedColumn.referencedColumns, c.StoredIn (rowOfCell [128, 0, 0, 7]) := by
    intro c member bytes held
    have same : c = ⟨[102], [113], .integer⟩ := List.mem_singleton.mp member
    have found : (rowOfCell [128, 0, 0, 7]).columnValue [102] [113] = .ok (some [128, 0, 0, 7]) := by
      decide +kernel
    rw [same, found] at held
    injection held with held
    injection held with held
    rw [same, ← held]
    exact ⟨.integer ⟨7, by decide, by decide⟩, rfl⟩
  have answer : halvedColumn.evaluate (rowOfCell [128, 0, 0, 7]) =
      .ok (.integer ⟨3, by decide, by decide⟩) := by
    decide +kernel
  refine ⟨rfl, stored, answer, ?_⟩
  have fits := width_describes_values built scaled stored .self rfl rfl rfl answer nofun
  refine fits.resolve_right ?_
  intro cuts
  cases cuts with
  | here integers answers cut =>
    cases cut with
    | now step cut beyond => exact cut (.inl rfl)
    | later step rest => cases rest
  | operand integers member inside =>
    simp only [List.mem_cons, List.not_mem_nil, or_false] at member
    rcases member with same | same
    · rw [same] at inside
      cases inside
    · rw [same] at inside
      cases inside

/-- The greatest integer of 32 bits, divided by one and multiplied with itself. -/
def greatestSquare : Expr :=
  arithmetic .multiply
    [integerQuotient ⟨2147483647, by decide, by decide⟩ ⟨1, by decide, by decide⟩,
      literal (.integer ⟨2147483647, by decide, by decide⟩) (some .integer)]

/-- The widths of the quotient and of the product both have thirty-eight digits, of which twenty-eight are
behind the point.  That leaves ten for the nineteen of the value. -/
theorem width_cut_below_value :
    Built greatestSquare ∧ WellScaled greatestSquare ∧ greatestSquare.referencedColumns = [] ∧
      greatestSquare.type? = some .bigInt ∧ greatestSquare.width = Width.fixed 38 28 ∧
      greatestSquare.evaluate Row.empty =
        .ok (.integer ⟨4611686014132420609, by decide, by decide⟩) ∧
      ¬ ∃ u s, (Value.integer ⟨4611686014132420609, by decide, by decide⟩).fixedPoint? = some (u, s) ∧
        s ≤ 28 ∧ u.val.natAbs * 10 ^ (28 - s) < 10 ^ 38 := by
  have greatest : Built (literal (.integer ⟨2147483647, by decide, by decide⟩) (some .integer)) :=
    built_integer (by decide) (by decide)
  have quotient := built_integerQuotient greatest
    (built_integer (n := ⟨1, by decide, by decide⟩) (by decide) (by decide))
  have made : ofArithmetic .multiply greatestSquare.children = .ok greatestSquare := rfl
  refine ⟨.arithmetic ?_ made, .arithmetic ?_, rfl, rfl, rfl, rfl, ?_⟩
  · exact List.forall_mem_cons.mpr ⟨quotient, List.forall_mem_singleton.mpr greatest⟩
  · exact List.forall_mem_cons.mpr
      ⟨wellScaled_integerQuotient _ _, List.forall_mem_singleton.mpr (.integer _)⟩
  · intro ⟨u, s, fixed, _, small⟩
    cases fixed
    exact absurd small (by decide)

end Expr

end WideRow
