import WideRow.Fault.Record
import WideRow.Value.Text

/-!
# Query faults

Why building or running a query fails.  The constructors of `QueryFault` are the kinds that a caller
tells apart; each carries its cause, and `QueryFault.message` is the text shown.
-/

namespace WideRow

/-- Why the next row of a scan could not be had. -/
inductive AdvanceFault where
  /-- The source failed, with this description. -/
  | source (text : String)
  /-- A key came after a greater one. -/
  | keyOrder (key last : Bytes)
  deriving DecidableEq

/-- A value or an expression of the wrong type. -/
inductive TypeFault where
  | incomparable (left right : Value)
  | cannotCast (value : Value) (target : DataType)
  | nullEncoding (type : DataType)
  | nonNumericOperand (operand : String) (type : DataType)
  | incomparableTypes (left right : DataType)
  /-- An operand of arithmetic that is not a number of the kind wanted. -/
  | unexpectedOperand (wanted : String) (found : Value)
  | nonBoolean (predicate : String) (found : Value)
  deriving DecidableEq

/-- A query that cannot be planned. -/
inductive PlanFault where
  | emptyPoint
  | tooFewOperands (op : ArithmeticOp) (count : Nat)
  | conditionNotBoolean (type : DataType)
  deriving DecidableEq

/-- A step of a running query that fails. -/
inductive RunFault where
  | notInitialized
  /-- A sequence of rows that has neither an operator nor a fault to report. -/
  | noOperator
  | closeFailed (label text : String)
  | missingOperands (expression : String)
  | noResult (expression : String)
  deriving DecidableEq

/-- Bytes that are no wire form. -/
inductive WireFault where
  | endOfInput
  | badBoolean (byte : Nat)
  | badVariant (index : Nat)
  deriving DecidableEq

/-- Why a query fails. -/
inductive QueryFault where
  | malformedRecord (cause : RecordFault)
  | advance (cause : AdvanceFault)
  /-- The scan failed before. -/
  | aborted
  | type (cause : TypeFault)
  | planning (cause : PlanFault)
  | execution (cause : RunFault)
  | serialization (cause : WireFault)
  | numeric (cause : NumericFault)
  deriving DecidableEq

/-- The description of the fault. -/
def AdvanceFault.message : AdvanceFault → String
  | source text => text
  | keyOrder key last => s!"key {key.hex} returned after {last.hex}"

/-- The description of the fault. -/
def TypeFault.message : TypeFault → String
  | incomparable left right =>
    s!"Cannot compare incompatible values {left.diagnostic} and {right.diagnostic}"
  | cannotCast value target => s!"Cannot cast {value.diagnostic} to {target.text}"
  | nullEncoding type => s!"NULL has no {type.text} encoding"
  | nonNumericOperand operand type =>
    s!"Arithmetic operand {operand} has non-numeric type {type.text}"
  | incomparableTypes left right => s!"Cannot compare {left.text} with {right.text}"
  | unexpectedOperand wanted found => s!"Expected {wanted} operand, found {found.diagnostic}"
  | nonBoolean predicate found =>
    s!"Predicate {predicate} produced non-boolean {found.diagnostic}"

/-- The description of the fault. -/
def PlanFault.message : PlanFault → String
  | emptyPoint => "point range needs a non-empty key"
  | tooFewOperands op count =>
    s!"Arithmetic {op.symbol} needs at least two operands, got {count}"
  | conditionNotBoolean type => s!"WHERE clause must be boolean, found {type.text}"

/-- The description of the fault. -/
def RunFault.message : RunFault → String
  | notInitialized => "Operator not initialized"
  | noOperator => "Row sequence has no operator"
  | closeFailed label text => s!"Failed to close scan {label}: {text}"
  | missingOperands expression => s!"Comparison {expression} is missing operands"
  | noResult expression => s!"No result produced for {expression}"

/-- The description of the fault. -/
def WireFault.message : WireFault → String
  | endOfInput => "io error: unexpected end of file"
  | badBoolean byte => s!"invalid u8 while decoding bool, expected 0 or 1, found {byte}"
  | badVariant index => s!"invalid value: integer `{index}`, expected variant index 0 <= i < 6"

/-- The description of the fault. -/
def NumericFault.message : NumericFault → String
  | overflow => "Numeric overflow"
  | divisionByZero => "Division by zero"

/-- The text shown for a fault. -/
def QueryFault.message : QueryFault → String
  | malformedRecord cause => s!"Malformed record: {cause.message}"
  | advance cause => s!"Scan advance failure: {cause.message}"
  | aborted => "Scan aborted after an earlier failure; re-issue the scan"
  | type cause => s!"Type error: {cause.message}"
  | planning cause => s!"Planning error: {cause.message}"
  | execution cause => s!"Execution error: {cause.message}"
  | serialization cause => s!"Serialization error: {cause.message}"
  | numeric cause => cause.message

/-- A computation that may fail for a reason of the query. -/
abbrev Fallible := Except QueryFault

namespace Fallible

/-- The result of exact arithmetic. -/
def ofNumeric {α : Type} : Except NumericFault α → Fallible α
  | .ok a => .ok a
  | .error cause => .error (.numeric cause)

/-- The result of reading a record. -/
def ofRecord {α : Type} : Except RecordFault α → Fallible α
  | .ok a => .ok a
  | .error cause => .error (.malformedRecord cause)

/-- A value that is absent on overflow. -/
def orOverflow {α : Type} : Option α → Fallible α
  | some a => .ok a
  | none => .error (.numeric .overflow)

end Fallible

end WideRow
