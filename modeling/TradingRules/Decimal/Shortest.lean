import TradingRules.Decimal.Binary

/-!
# `Decimal.Shortest` — decimal digits of a double

Two ways to choose digits for an exact binary number, both in exact arithmetic:

* `Dyadic.shortest` — the fewest digits that read back as the same double, and of those the nearest;
* `Dyadic.rounded n` — the number rounded to `n` significant digits, a tie going to the even neighbour.

Each works on a decimal grid `10 ^ exponent`: the number lies between two neighbours on the grid, and only
those two can be the answer there.
-/

namespace TradingRules

/-- The number `coefficient * 10 ^ exponent`. -/
structure Decimal where
  coefficient : Nat
  exponent : Int
deriving DecidableEq, Repr

namespace Decimal

/-- The digits of the coefficient, first one first. -/
def digits (d : Decimal) : List Char := Nat.toDigits 10 d.coefficient

/-- The power of ten at which the first digit stands. -/
def leading (d : Decimal) : Int := d.exponent + d.digits.length - 1

/-- `num * 10 ^ k / den` for any integer `k`, as a fraction of naturals. -/
def shift (num den : Nat) (k : Int) : Nat × Nat :=
  if 0 ≤ k then (num * Nat.pow 10 k.toNat, den) else (num, den * Nat.pow 10 (-k).toNat)

/-- `10 ^ k ≤ num / den`. -/
def powerLe (k : Int) (num den : Nat) : Bool :=
  let (n, d) := shift num den (-k)
  d ≤ n

/-- The greatest `k` with `10 ^ k ≤ num / den`, for a positive fraction. The binary logarithms of the two
sides give an estimate that is at most two too small. -/
def leadingPower (num den : Nat) : Int :=
  let estimate := (((num.log2 : Int) - den.log2 - 1) * 30103).fdiv 100000
  if powerLe (estimate + 2) num den then estimate + 2
  else if powerLe (estimate + 1) num den then estimate + 1
  else estimate

end Decimal

namespace Dyadic

/-- The numbers that read back as a double form an interval: half a unit up, and half a unit (a quarter, if
the neighbour below is nearer) down. Its ends belong to it iff the mantissa is even. `reads d c k` says that
`c * 10 ^ k` lies in the interval. -/
def reads (d : Dyadic) (c : Nat) (k : Int) : Bool :=
  let (unit, den) := d.unit
  let (num, scale) := Decimal.shift c 1 k
  let value := 4 * num * den
  let low := (4 * d.mantissa - (if d.narrowBelow then 1 else 2)) * unit * scale
  let high := (4 * d.mantissa + 2) * unit * scale
  if d.mantissa % 2 = 0 then low ≤ value && value ≤ high else low < value && value < high

/-- The number's lower neighbour `c` on the grid `10 ^ k`, and how twice the distance to it compares with the
grid's step. -/
def onGrid (d : Dyadic) (k : Int) : Nat × Ordering :=
  let (n, m) := Decimal.shift d.fraction.1 d.fraction.2 (-k)
  (n / m, compare (2 * (n % m)) m)

/-- The nearer of the two neighbours on a grid; a tie goes to the even one. -/
def nearer : Nat × Ordering → Nat
  | (c, .lt) => c
  | (c, .eq) => c + c % 2
  | (c, .gt) => c + 1

/-- The position of the first digit of a positive number. -/
def leading (d : Dyadic) : Int := Decimal.leadingPower d.fraction.1 d.fraction.2

/-- The candidate with `n` digits that reads back as the number, the nearer one if both do. -/
def shortestOf (d : Dyadic) (n : Nat) : Option Decimal :=
  let k := d.leading + 1 - n
  let side := d.onGrid k
  match d.reads side.1 k, d.reads (side.1 + 1) k with
  | true, true => some ⟨nearer side, k⟩
  | true, false => some ⟨side.1, k⟩
  | false, true => some ⟨side.1 + 1, k⟩
  | false, false => none

/-- The fewest digits that read back: seventeen always do. -/
def shortest (d : Dyadic) : Decimal :=
  if d.mantissa = 0 then ⟨0, 0⟩
  else ((List.range 17).findSome? fun n => d.shortestOf (n + 1)).getD ⟨d.mantissa, 0⟩

/-- The number to `n` significant digits; a tie goes to the even neighbour. -/
def rounded (d : Dyadic) (n : Nat) : Decimal :=
  if d.mantissa = 0 then ⟨0, 0⟩
  else
    let k := d.leading + 1 - n
    ⟨nearer (d.onGrid k), k⟩

end Dyadic

end TradingRules
