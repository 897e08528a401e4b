import TradingRules.Evaluation.Basic
import TradingRules.Rule.Basic

/-!
# `Engine.Result` — the outcome of a rule

A rule that cannot be evaluated, because its data cannot be read, is recorded as failed with an empty trace:
one bad rule never stops the others. Of the rules that pass, the one with the least priority number decides.
-/

namespace TradingRules

/-- The outcome of one rule on one tick. -/
structure RuleResult where
  number : Nat
  side : Side
  priority : Nat
  trace : GroupTrace
deriving Inhabited

namespace RuleResult

/-- The rule passed. -/
def passed (r : RuleResult) : Bool := r.trace.passed

/-- The stored form of a result. -/
def toJson (r : RuleResult) : Json :=
  .obj [("ruleNo", .int r.number), ("ruleType", .str r.side.name), ("priority", .int r.priority),
        ("passed", .bool r.passed), ("conditionTrace", r.trace.toJson)]

end RuleResult

/-- The trace of a tree that could not be evaluated: failed, and without children. -/
def GroupTrace.failed (g : Group) : GroupTrace := { logic := g.logic }

/-- The trace of a tree, whatever the data. -/
def Group.traceOn (g : Group) (ctx : Context) : GroupTrace :=
  match g.evaluate ctx with
  | .ok trace => trace
  | .error _ => .failed g

/-- A rule on the bars that can be seen. -/
def Rule.evaluate (r : Rule) (ctx : Context) : RuleResult :=
  { number := r.number, side := r.side, priority := r.priority, trace := r.tree.traceOn ctx }

/-- Several rules, from the least priority number up. -/
def evaluateRules (rules : List Rule) (ctx : Context) : List RuleResult :=
  (byPriority rules).map (·.evaluate ctx)

/-- The first of several entries with the least key. -/
def leastBy {α : Type} (key : α → Int) : List α → Option α
  | [] => none
  | a :: rest => match leastBy key rest with
    | none => some a
    | some b => some (if key b < key a then b else a)

/-- The outcome that decides: of those that passed, the first with the least priority number. -/
def deciding {α : Type} (passed : α → Bool) (priority : α → Int) (outcomes : List α) : Option α :=
  leastBy priority (outcomes.filter passed)

/-- The result that decides. -/
def triggered (results : List RuleResult) : Option RuleResult :=
  deciding (·.passed) (fun r => r.priority) results

end TradingRules
