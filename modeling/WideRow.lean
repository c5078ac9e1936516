import WideRow.Expr.Trace
import WideRow.Filter.Wire
import WideRow.KeyRange.Wire
import WideRow.Proofs.Expr.Evaluate
import WideRow.Proofs.Number.Binary64
import WideRow.Proofs.Number.Decimal
import WideRow.Proofs.Plan.Walk
import WideRow.Store
import WideRow.Stream.Pipe
import WideRow.Proofs.Value.Typing
import WideRow.Proofs.Expr.Typing
import WideRow.Proofs.Bytes.Order
import WideRow.Proofs.Value.Codec
import WideRow.Proofs.Filter.Pushdown
import WideRow.Proofs.Number.Width
import WideRow.Proofs.Expr.Width
import WideRow.Proofs.Cell.Placed
import WideRow.Proofs.Cell.Order
import WideRow.Proofs.Cell.Term
import WideRow.Proofs.Cell.Record
import WideRow.Proofs.Row.Shapes
import WideRow.Proofs.Expr.DecimalFold
import WideRow.Proofs.Expr.DecimalDivision
import WideRow.Proofs.Value.ExactOrder
import WideRow.Proofs.Value.Storage
import WideRow.Proofs.Expr.Swap
import WideRow.Proofs.Expr.Dependence
import WideRow.Proofs.Stream.ScanRun
import WideRow.Proofs.Plan.Fields
import WideRow.Proofs.Plan.Protocol
import WideRow.Proofs.Plan.Release
import WideRow.Proofs.Row.Lookup
import WideRow.Proofs.Expr.Strict
import WideRow.Proofs.Stream.StableUnion
import WideRow.Proofs.Stream.Conservation
import WideRow.Proofs.Number.Words
import WideRow.Proofs.Number.Rescaling
import WideRow.Proofs.Number.Digits
import WideRow.Proofs.Expr.IntegerFold
import WideRow.Proofs.Expr.DecimalRounding
import WideRow.Proofs.Row.Splitting
import WideRow.Proofs.Row.Lengths
import WideRow.Proofs.KeyRange.Partition
import WideRow.Proofs.Row.Amid
import WideRow.Proofs.Row.Strangers
import WideRow.Proofs.Projection.Names
import WideRow.Proofs.Wire.Lossless
import WideRow.Proofs.Value.Cast
import WideRow.Proofs.Value.DecimalText
import WideRow.Proofs.Expr.StepWidths
import WideRow.Proofs.Text.Literal
