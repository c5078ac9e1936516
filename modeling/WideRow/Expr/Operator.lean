/-!
# Arithmetic and comparison operators

The four arithmetic operators with their symbols, and the six comparisons.  A comparison is the set of
orderings it `admits`.  `mirror` keeps the meaning when the operands change places, `negate` reverses
it.
-/

namespace WideRow

/-- An arithmetic operator. -/
inductive ArithmeticOp where
  | add
  | subtract
  | multiply
  | divide
  deriving DecidableEq

/-- The symbol of an arithmetic operator. -/
def ArithmeticOp.symbol : ArithmeticOp → String
  | .add => "+"
  | .subtract => "-"
  | .multiply => "*"
  | .divide => "/"

/-- A binary comparison. -/
inductive CompareOp where
  | less
  | lessOrEqual
  | equal
  | notEqual
  | greater
  | greaterOrEqual
  deriving DecidableEq

namespace CompareOp

/-- Every comparison, in the order of their wire numbers. -/
def all : List CompareOp := [less, lessOrEqual, equal, notEqual, greater, greaterOrEqual]

/-- The number of a comparison in the wire form. -/
def index : CompareOp → Nat
  | less => 0
  | lessOrEqual => 1
  | equal => 2
  | notEqual => 3
  | greater => 4
  | greaterOrEqual => 5

/-- The comparison with a wire number. -/
def ofIndex? (n : Nat) : Option CompareOp := all[n]?

/-- The symbol of a comparison. -/
def symbol : CompareOp → String
  | less => "<"
  | lessOrEqual => "<="
  | equal => "="
  | notEqual => "!="
  | greater => ">"
  | greaterOrEqual => ">="

/-- The word for a comparison, in diagnostics. -/
def word : CompareOp → String
  | less => "Less"
  | lessOrEqual => "LessOrEqual"
  | equal => "Equal"
  | notEqual => "NotEqual"
  | greater => "Greater"
  | greaterOrEqual => "GreaterOrEqual"

/-- Whether the comparison holds of operands in the given order. -/
def admits : CompareOp → Ordering → Bool
  | less, o => o == .lt
  | lessOrEqual, o => o != .gt
  | equal, o => o == .eq
  | notEqual, o => o != .eq
  | greater, o => o == .gt
  | greaterOrEqual, o => o != .lt

/-- The comparison that means the same with its operands in the other order. -/
def mirror : CompareOp → CompareOp
  | less => greater
  | lessOrEqual => greaterOrEqual
  | equal => equal
  | notEqual => notEqual
  | greater => less
  | greaterOrEqual => lessOrEqual

/-- The comparison that holds exactly where this one fails. -/
def negate : CompareOp → CompareOp
  | less => greaterOrEqual
  | lessOrEqual => greater
  | equal => notEqual
  | notEqual => equal
  | greater => lessOrEqual
  | greaterOrEqual => less

theorem ofIndex?_index (op : CompareOp) : ofIndex? op.index = some op := by
  cases op <;> rfl

theorem admits_mirror (op : CompareOp) (o : Ordering) : op.mirror.admits o.swap = op.admits o := by
  cases op <;> cases o <;> rfl

theorem admits_negate (op : CompareOp) (o : Ordering) : op.negate.admits o = !op.admits o := by
  cases op <;> cases o <;> rfl

theorem mirror_mirror (op : CompareOp) : op.mirror.mirror = op := by
  cases op <;> rfl

end CompareOp

end WideRow
