import TradingRules.Assoc
import TradingRules.Engine.Result
import TradingRules.Json.Message

/-!
# `Engine.Basic` — rules tick by tick

While no position is open a tick evaluates the buying rules, and one that passes means to enter; while one is
open it evaluates the selling rules, and one that passes means to leave. From the time its rules were loaded an
engine keeps the rules that are tried for each side, in order, and the last outcome of every rule number.

## Contents
* `PositionState`, `Action`, `TickLog`;
* `Engine` — `ofRules`, `reload`, `active`, `evaluateSide`, `tick`, `result`.
-/

namespace TradingRules

/-- Whether a position is open. -/
inductive PositionState where
  | flat
  | holding
deriving DecidableEq, Repr, Inhabited

/-- What a tick leads to. -/
inductive Action where
  | entry
  | exit
deriving DecidableEq, Repr

/-- The name of a state. -/
def PositionState.name : PositionState → String
  | .flat => "NONE"
  | .holding => "HOLDING"

/-- The state with a name. -/
def PositionState.ofName? : String → Option PositionState
  | "NONE" => some .flat
  | "HOLDING" => some .holding
  | _ => none

/-- The name of an action. -/
def Action.name : Action → String
  | .entry => "ENTRY"
  | .exit => "EXIT"

/-- The rules that are evaluated in a state. -/
def PositionState.side : PositionState → Side
  | .flat => .buy
  | .holding => .sell

/-- What a rule that passes in a state leads to. -/
def PositionState.action : PositionState → Action
  | .flat => .entry
  | .holding => .exit

/-- The state after an action, or after none. -/
def PositionState.next (state : PositionState) : Option Action → PositionState
  | none => state
  | some .entry => .holding
  | some .exit => .flat

/-- A value is no position state. -/
structure UnknownState where
  value : Json
deriving DecidableEq

/-- The error in words. -/
def UnknownState.message (e : UnknownState) : String := e.value.quote ++ " is not a valid PositionState"

/-- The state that a value names. -/
def PositionState.read (value : Json) : Except UnknownState PositionState :=
  match value with
  | .str name => match ofName? name with
    | some state => .ok state
    | none => .error ⟨value⟩
  | _ => .error ⟨value⟩

/-- The log of one tick. Its prices are those of the current bar, as the bar has them. -/
structure TickLog where
  timestamp : Option Timestamp
  price : PriceBar
  state : PositionState
  results : List RuleResult
  /-- What the tick leads to, and the number of the rule that decided it. -/
  decision : Option (Action × Nat)
deriving Inhabited

namespace TickLog

/-- The rules that were evaluated. -/
def side (log : TickLog) : Side := log.state.side

/-- What the tick leads to. -/
def action (log : TickLog) : Option Action := log.decision.map (·.1)

/-- The number of the rule that decided. -/
def actionRule (log : TickLog) : Option Nat := log.decision.map (·.2)

/-- Some rule passed. -/
def anyPassed (log : TickLog) : Bool := log.results.any (·.passed)

/-- The log of a tick in a state on the bars that can be seen. -/
def ofResults (ctx : Context) (state : PositionState) (results : List RuleResult) : TickLog where
  timestamp := ctx.current.bind (·.timestamp)
  price := (ctx.current.map (·.price)).getD {}
  state := state
  results := results
  decision := (triggered results).map fun r => (state.action, r.number)

/-- A text that may be missing. -/
def optionalText : Option String → Json
  | none => .null
  | some s => .str s

/-- The stored form of a log. The prices are written as they stand. -/
def toJson (log : TickLog) : Json :=
  .obj [("candleTimestamp", optionalText (log.timestamp.map (·.zuluText))),
        ("openPrice", log.price.opening), ("highPrice", log.price.highest),
        ("lowPrice", log.price.lowest), ("closePrice", log.price.closing),
        ("positionState", .str log.state.name), ("evaluatedRuleType", .str log.side.name),
        ("action", optionalText (log.action.map (·.name))),
        ("actionRuleNo", match log.actionRule with
          | none => .null
          | some n => .int n),
        ("ruleResults", .arr (log.results.map RuleResult.toJson))]

end TickLog

/-- The rules of a strategy, the rules that are tried for each side, and the last outcome of every rule number. The
lists of the sides are put together when rules are loaded and not again. -/
structure Engine where
  rules : RuleSet
  buying : List Rule
  selling : List Rule
  outcomes : List (Nat × Bool) := []
deriving Inhabited

namespace Engine

/-- An engine that has not evaluated anything. -/
def ofRules (rules : RuleSet) : Engine where
  rules
  buying := rules.active .buy
  selling := rules.active .sell

/-- Puts other rules and their lists in place and forgets every outcome. -/
def reload (e : Engine) (rules : RuleSet) : Engine :=
  { e with
    rules
    buying := rules.active .buy
    selling := rules.active .sell
    outcomes := [] }

/-- The rules that are tried for a side. -/
def active (e : Engine) : Side → List Rule
  | .buy => e.buying
  | .sell => e.selling

/-- Keeps the outcomes of several results, each in place of an earlier one of its rule number. -/
def record (outcomes : List (Nat × Bool)) (results : List RuleResult) : List (Nat × Bool) :=
  results.foldl (fun kept r => Assoc.insert kept r.number r.passed) outcomes

/-- Evaluates the rules that are tried for a side. -/
def evaluateSide (e : Engine) (side : Side) (ctx : Context) : Engine × List RuleResult :=
  let results := evaluateRules (e.active side) ctx
  ({ e with outcomes := record e.outcomes results }, results)

/-- Evaluates a tick in a state. -/
def tick (e : Engine) (ctx : Context) (state : PositionState) : Engine × TickLog :=
  let (e, results) := e.evaluateSide state.side ctx
  (e, .ofResults ctx state results)

/-- Evaluates a tick in the state that a value names; any other value is refused. -/
def tickIn (e : Engine) (ctx : Context) (state : Json) : Except UnknownState (Engine × TickLog) :=
  (PositionState.read state).map (e.tick ctx)

/-- The last outcome of a rule number. -/
def result (e : Engine) (number : Nat) : Option Bool := e.outcomes.lookup number

/-- The outcomes from the least rule number up. -/
def sortedOutcomes (e : Engine) : List (Nat × Bool) := e.outcomes.mergeSort fun a b => a.1 ≤ b.1

end Engine

end TradingRules
