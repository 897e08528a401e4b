/-!
# `Position.Metric` — what is known about an open position

The metrics of a position, by the names under which position tests read them. Percentages are in units of
one per cent.
-/

namespace TradingRules

/-- A metric of the open position. -/
inductive Metric where
  /-- The change since entry. -/
  | change
  /-- The distance below the best close since entry. -/
  | trailing
  /-- The best change since entry. -/
  | bestChange
  /-- Minutes since entry. -/
  | minutes
deriving DecidableEq, Repr

/-- The name under which a metric is read. -/
def Metric.name : Metric → String
  | .change => "changePercent"
  | .trailing => "trailingPercent"
  | .bestChange => "highChangePercent"
  | .minutes => "holdingMinutes"

end TradingRules
