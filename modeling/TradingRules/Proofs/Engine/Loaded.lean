import TradingRules.Engine.Basic
import TradingRules.Proofs.Rule.Priority

/-!
# `Proofs.Engine.Loaded` — the rules an engine tries

An engine puts the lists of its sides together when rules are loaded, and a tick looks at these lists only. They
are right as long as they are those of the rules in place (`Engine.Loaded`): loading makes them so, evaluating
leaves them alone, and an engine of which this is true makes the log that its rules call for
(`Engine.Loaded.log_tick`), whatever it remembers.
-/

namespace TradingRules

namespace Engine

/-- The rules of a strategy are in place, and the lists of the sides are made from them. -/
structure Loaded (e : Engine) (rules : RuleSet) : Prop where
  inPlace : e.rules = rules
  active : ∀ side, e.active side = rules.active side

variable {e : Engine} {rules : RuleSet}

theorem loaded_ofRules (rules : RuleSet) : (ofRules rules).Loaded rules where
  inPlace := rfl
  active := by
    intro side
    cases side <;> rfl

theorem loaded_reload (e : Engine) (rules : RuleSet) : (e.reload rules).Loaded rules where
  inPlace := rfl
  active := by
    intro side
    cases side <;> rfl

namespace Loaded

/-- Outcomes have no part in it. -/
theorem withOutcomes (h : e.Loaded rules) (outcomes : List (Nat × Bool)) :
    ({ e with outcomes } : Engine).Loaded rules where
  inPlace := h.inPlace
  active := by
    intro side
    rw [← h.active side]
    cases side <;> rfl

/-- Evaluating a side leaves the lists as they were. -/
theorem evaluateSide (h : e.Loaded rules) (side : Side) (ctx : Context) : (e.evaluateSide side ctx).1.Loaded rules :=
  h.withOutcomes _

theorem tick (h : e.Loaded rules) (ctx : Context) (state : PositionState) : (e.tick ctx state).1.Loaded rules :=
  h.evaluateSide state.side ctx

/-- What is tried for a side are the active rules of the side, in their order. -/
theorem evaluateRules_eq (h : e.Loaded rules) (side : Side) (ctx : Context) :
    evaluateRules (e.active side) ctx = (rules.active side).map (·.evaluate ctx) := by
  rw [h.active side]
  exact evaluateRules_active rules side ctx

/-- **A tick makes the log that the rules in place call for**, whatever was recorded before. -/
theorem log_tick (h : e.Loaded rules) (ctx : Context) (state : PositionState) :
    (e.tick ctx state).2 = .ofResults ctx state ((rules.active state.side).map (·.evaluate ctx)) := by
  rw [← h.evaluateRules_eq state.side ctx]
  rfl

end Loaded

end Engine

end TradingRules
