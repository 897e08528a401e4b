import TradingRules.Condition.Decode
import TradingRules.Engine.Basic
import TradingRules.Rule.Storage

/-!
# `Engine.Recorded` — ticks on record

A tick is evaluated and then put on record. On record the prices of the current bar are numbers or missing: what
counts as a number is taken for one, and any other value is refused. The rules have been evaluated by then, so
their outcomes are kept even if there is no record.

## Contents
* `PriceBar.recorded` — prices as they go on record;
* `TickError`, `TickLog.recorded` — logs as they go on record;
* `Engine.evaluateTick` — a tick with its record.
-/

namespace TradingRules

/-- The name under which a price goes on record. -/
def PriceField.recordName : PriceField → String
  | .closing => "close_price"
  | .opening => "open_price"
  | .highest => "high_price"
  | .lowest => "low_price"

namespace PriceBar

/-- One of the prices as it goes on record: null, or the number that it counts as. -/
def entry (p : PriceBar) (field : PriceField) : Checked Json :=
  (numberJson <$> readOptional readNumber (p.given field)).under (.key field.recordName)

/-- The prices as they go on record. -/
def recorded (p : PriceBar) : Checked PriceBar :=
  PriceBar.mk <$> p.entry .opening <*> p.entry .highest <*> p.entry .lowest <*> p.entry .closing

end PriceBar

/-- Why there is no record of a tick. -/
inductive TickError where
  | unknownState (e : UnknownState)
  /-- There are issues with the prices of the current bar. -/
  | invalid (issues : List Issue)
deriving DecidableEq

/-- The error in words. -/
def TickError.message : TickError → String
  | .unknownState e => e.message
  | .invalid issues => issueCount "ConditionLog" issues

/-- A log as it goes on record. -/
def TickLog.recorded (log : TickLog) : Except TickError TickLog :=
  match log.price.recorded with
  | .ok price => .ok { log with price }
  | .bad issues => .error (.invalid issues)

/-- Evaluates a tick in the state that a value names, and puts it on record. A value that names no state changes
nothing. -/
def Engine.evaluateTick (e : Engine) (ctx : Context) (state : Json) : Engine × Except TickError TickLog :=
  match e.tickIn ctx state with
  | .error unknown => (e, .error (.unknownState unknown))
  | .ok (next, log) => (next, log.recorded)

end TradingRules
