import TradingRules.Decimal.Shortest

/-!
# `Decimal.Nearest` — the double nearest to a decimal

Reading rounds to the nearest double, so a decimal beyond the range becomes infinite and one below the
least double becomes zero. Both are decided from the position of the first digit before any power of ten
is computed: an exponent of any size costs nothing.
-/

namespace TradingRules

/-- Positive infinity. -/
def infinity : Float := 1.0 / 0.0

namespace Decimal

/-- The nearest double, infinite from about `1.8e308` on. -/
def nearest (d : Decimal) : Float :=
  if d.coefficient = 0 then 0.0
  else if 310 < d.leading then infinity
  else if d.leading < -330 then 0.0
  else Float.ofScientific d.coefficient (d.exponent < 0) d.exponent.natAbs

/-- The nearest double to an integer, if there is a finite one. -/
def floatOfInt? (n : Int) : Option Float :=
  let size := nearest ⟨n.natAbs, 0⟩
  if size.isInf then none
  else some (if n < 0 then -size else size)

end Decimal

end TradingRules
