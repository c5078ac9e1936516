import WideRow.Expr.Basic

/-!
# Visitors

A walk over an expression in three stages.  At each node the visitor is asked whether to go on to the
operands, the operands are visited from the left, and the visitor leaves the node with their results.
Where leaving gives nothing, the fallback makes a result of what leaving has kept of them.
-/

namespace WideRow

/-- The three stages of a walk, with results of type `ρ`. -/
structure Visitor (m : Type → Type) (ρ : Type) where
  /-- Whether to visit the operands. -/
  enter : Expr → m Bool
  /-- A result for the node, if there is one, and what is kept of the results of its operands. -/
  leave : Expr → List ρ → m (Option ρ × List ρ)
  /-- The result of a node that was left without one. -/
  fallback : Expr → List ρ → m ρ

namespace Visitor

/-- The last two stages. -/
def settle {m : Type → Type} [Monad m] {ρ : Type} (v : Visitor m ρ) (node : Expr)
    (results : List ρ) : m ρ := do
  match ← v.leave node results with
  | (some result, _) => return result
  | (none, kept) => v.fallback node kept

end Visitor

namespace Expr

mutual

/-- Walks an expression. -/
def accept {m : Type → Type} [Monad m] {ρ : Type} (v : Visitor m ρ) : Expr → m ρ
  | literal value type => do
    let _ ← v.enter (literal value type)
    v.settle (literal value type) []
  | column c => do
    let _ ← v.enter (column c)
    v.settle (column c) []
  | arithmetic op operands => do
    let descend ← v.enter (arithmetic op operands)
    let results ← if descend then acceptAll v operands else pure []
    v.settle (arithmetic op operands) results
  | comparison op left right => do
    let descend ← v.enter (comparison op left right)
    let results ← if descend then do
        let first ← accept v left
        let second ← accept v right
        pure [first, second]
      else pure []
    v.settle (comparison op left right) results

/-- Walks some expressions from the left. -/
def acceptAll {m : Type → Type} [Monad m] {ρ : Type} (v : Visitor m ρ) : List Expr → m (List ρ)
  | [] => return []
  | e :: rest => do
    let first ← accept v e
    let others ← acceptAll v rest
    return first :: others

end

end Expr

end WideRow
