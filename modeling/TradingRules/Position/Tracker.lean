import TradingRules.Decimal.Nearest
import TradingRules.Json.Value
import TradingRules.Position.Metric
import TradingRules.Timestamp

/-!
# `Position.Tracker` — following a hypothetical position

A tracker knows whether a position is open and, if so, when and at which price it was entered and the best
close since. From these it computes the metrics that position tests read. Nothing is traded.

Prices are numbers of any kind that can be compared and divided, so that the arithmetic of doubles and that of
fractions are two cases of one definition.

## Contents
* `Prices`, `Holding`, `Tracker` — what is known about a position;
* `Tracker.enter`, `Tracker.leave`, `Tracker.observe` — entry, exit, and a bar in between;
* `Metrics` — the metrics, and `Metrics.fields` under their names.
-/

namespace TradingRules

/-- Why metrics cannot be computed. -/
inductive TrackError where
  /-- Only one of two times has an offset from universal time. -/
  | incomparableTimes
  /-- The best close is zero, and no change can be relative to it. -/
  | bestIsZero
deriving DecidableEq, Repr

/-- The price at entry, and the best close since then, the entry included. -/
structure Prices (α : Type) where
  entry : α
  best : α
deriving DecidableEq, Repr

/-- An open position: when it was entered, and its prices if that at entry is known. -/
structure Holding (α : Type) where
  since : Option Timestamp
  prices : Option (Prices α)
deriving DecidableEq, Repr

/-- What is known about the position. -/
structure Tracker (α : Type) where
  /-- The position that is open, if one is. -/
  holding : Option (Holding α) := none
deriving DecidableEq, Repr, Inhabited

/-- The metrics of a position. Changes are in units of one per cent. -/
structure Metrics (α : Type) where
  change : α
  bestChange : α
  trailing : α
  /-- The microseconds since entry, if both times are known. -/
  held : Option Int
deriving DecidableEq, Repr

namespace Tracker

variable {α : Type}

/-- No position is open. -/
def flat : Tracker α := {}

/-- Opens a position, in place of one that is open already. -/
def enter (_ : Tracker α) (price : Option α) (time : Option Timestamp) : Tracker α :=
  ⟨some ⟨time, price.map fun p => ⟨p, p⟩⟩⟩

/-- Closes the position. -/
def leave (_ : Tracker α) : Tracker α := flat

/-- The prices of the position, if it is open and they are known. -/
def prices (t : Tracker α) : Option (Prices α) := t.holding.bind (·.prices)

/-- The time from one bar to another, if both have one. -/
def timeHeld (time since : Option Timestamp) : Except TrackError (Option Int) :=
  match time, since with
  | some later, some earlier => match later.since? earlier with
    | some micros => .ok (some micros)
    | none => .error .incomparableTimes
  | _, _ => .ok none

variable [Sub α] [Mul α] [Div α] [LT α] [DecidableLT α] [BEq α] [OfNat α 0] [OfNat α 100]

/-- The change from one price to another, relative to the first, in units of one per cent. -/
def percent (first later : α) : α := (later - first) / first * 100

/-- The prices after a close. -/
def advance (p : Prices α) (close : α) : Prices α :=
  if p.best < close then { p with best := close } else p

/-- The metrics of a position at a close, which already counts for the best one. -/
def measure (p : Prices α) (close : α) (held : Option Int) : Except TrackError (Metrics α) :=
  if p.best == 0 then .error .bestIsZero
  else .ok {
    change := percent p.entry close
    bestChange := percent p.entry p.best
    trailing := percent p.best close
    held }

/-- The metrics at a bar and the tracker after it. While nothing is held, without a close, and after an entry
at no known price or at zero there are none, and the bar does not count. -/
def observe (t : Tracker α) (close : Option α) (time : Option Timestamp) :
    Tracker α × Except TrackError (Option (Metrics α)) :=
  match t.holding, close with
  | some ⟨since, some prices⟩, some close =>
    if prices.entry == 0 then (t, .ok none)
    else
      let prices := advance prices close
      (⟨some ⟨since, some prices⟩⟩,
        (timeHeld time since).bind fun held => (measure prices close held).map some)
  | _, _ => (t, .ok none)

end Tracker

/-! ## Metrics as readings -/

/-- Microseconds as minutes. -/
def minutesOf (micros : Int) : Float :=
  let seconds := Decimal.nearest ⟨micros.natAbs, -6⟩
  (if micros < 0 then -seconds else seconds) / 60.0

/-- The metrics under the names by which position tests read them. -/
def Metrics.fields (m : Metrics Float) : List (String × Json) :=
  [(Metric.change.name, .float m.change), (Metric.bestChange.name, .float m.bestChange),
   (Metric.trailing.name, .float m.trailing),
   (Metric.minutes.name, match m.held with
     | none => .null
     | some micros => .float (minutesOf micros))]

end TradingRules
