import TradingRules.Evaluation.Trace
import TradingRules.Market.Window

/-!
# `Evaluation.Basic` — conditions on market data

Evaluating a condition on the bars that can be seen gives its trace. Every child of a group is evaluated, in
order and whatever the others say, so that the trace covers the whole tree. Evaluation fails only where a
reading does.

## Contents
* `Leaf.evaluate` — the four kinds of leaf;
* `Condition.evaluate`, `Group.evaluate` — trees.
-/

namespace TradingRules

/-- The field of an indicator against a constant. -/
def Threshold.evaluate (t : Threshold) (ctx : Context) : Except ReadError LeafTrace := do
  let actual ← ctx.indicator t.indicator t.field t.index.val
  let passed := t.comparison.test actual (some t.operand)
  return .threshold passed t.indicator t.field t.comparison actual (t.operand.bound t.comparison)

/-- One series against another, on the bars at their offsets and on the bars before those. -/
def Cross.evaluate (c : Cross) (ctx : Context) : Except ReadError LeafTrace := do
  let targetField := c.targetField.getD ""
  let actual ← ctx.indicator c.indicator c.field c.index.val
  let previous ← ctx.indicator c.indicator c.field (c.index.val + 1)
  let target ← ctx.indicator c.target targetField c.targetIndex.val
  let previousTarget ← ctx.indicator c.target targetField (c.targetIndex.val + 1)
  let passed := c.crossing.test previous previousTarget actual target
  return .cross passed c.indicator c.field c.crossing actual target previous previousTarget

/-- The field of an indicator against a price of the same bar. A single price cannot bound a range. -/
def PriceTest.evaluate (p : PriceTest) (ctx : Context) : Except ReadError LeafTrace := do
  let actual ← ctx.indicator p.indicator p.field p.index.val
  let target ← ctx.price p.price p.index.val
  let passed := p.comparison.test actual (target.map .scalar)
  return .price passed p.indicator p.field p.comparison p.price actual target

/-- A metric of the position against a constant. -/
def PositionTest.evaluate (p : PositionTest) (ctx : Context) : Except ReadError LeafTrace := do
  let actual ← ctx.metric p.field
  let passed := p.comparison.test actual (some p.operand)
  return .position passed p.field p.comparison actual (p.operand.bound p.comparison)

/-- A leaf on the bars that can be seen. -/
def Leaf.evaluate (l : Leaf) (ctx : Context) : Except ReadError LeafTrace :=
  match l with
  | .threshold t => t.evaluate ctx
  | .cross c => c.evaluate ctx
  | .price p => p.evaluate ctx
  | .position p => p.evaluate ctx

/-- The record of a group whose children were evaluated. -/
def GroupTrace.ofChildren (logic : Logic) (children : List Trace) : GroupTrace :=
  { logic, passed := logic.combine (children.map (·.passed)), children }

namespace Condition

mutual

/-- A condition on the bars that can be seen. -/
def evaluate (ctx : Context) : Condition → Except ReadError Trace
  | .leaf l => (l.evaluate ctx).map .leaf
  | .group logic children =>
    (evaluateAll ctx children).map fun traces => (GroupTrace.ofChildren logic traces).toTrace

/-- Several conditions, in order. -/
def evaluateAll (ctx : Context) : List Condition → Except ReadError (List Trace)
  | [] => .ok []
  | child :: children => do
    let trace ← child.evaluate ctx
    let traces ← evaluateAll ctx children
    return trace :: traces

end

end Condition

/-- A tree on the bars that can be seen. -/
def Group.evaluate (g : Group) (ctx : Context) : Except ReadError GroupTrace :=
  (Condition.evaluateAll ctx g.children).map (GroupTrace.ofChildren g.logic)

theorem Group.evaluate_toCondition (g : Group) (ctx : Context) :
    g.toCondition.evaluate ctx = (g.evaluate ctx).map GroupTrace.toTrace := by
  simp only [Group.toCondition, Condition.evaluate, Group.evaluate]
  cases Condition.evaluateAll ctx g.children <;> rfl

end TradingRules
