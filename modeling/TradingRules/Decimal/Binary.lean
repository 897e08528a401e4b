/-!
# `Decimal.Binary` — what a double stands for

A finite double is a sign and an exact number `mantissa * 2 ^ exponent`. Everything that writes a double
works on that exact number, so the digits written never depend on a floating-point computation.

## Contents
* `Dyadic` — the exact magnitude of a finite double;
* `Shape`, `Shape.of` — sign and magnitude of a double, or one of the special values.
-/

namespace TradingRules

/-- The exact number `mantissa * 2 ^ exponent`. -/
structure Dyadic where
  mantissa : Nat
  exponent : Int
  /-- The neighbour below is half as far away as the one above: the mantissa is the least of its binade. -/
  narrowBelow : Bool
deriving DecidableEq, Repr

/-- A double, taken apart. -/
inductive Shape where
  | finite (negative : Bool) (size : Dyadic)
  | infinite (negative : Bool)
  | nan
deriving DecidableEq, Repr

namespace Shape

/-- The fields of the binary64 format: one sign bit, eleven of exponent, fifty-two of fraction. -/
def ofFields (negative : Bool) (exponent fraction : Nat) : Shape :=
  if exponent = 2047 then
    if fraction = 0 then .infinite negative else .nan
  else if exponent = 0 then
    .finite negative ⟨fraction, -1074, false⟩
  else
    .finite negative ⟨Nat.pow 2 52 + fraction, (exponent : Int) - 1075, fraction = 0 ∧ 1 < exponent⟩

/-- Reads the fields of a double off its bits. -/
def of (x : Float) : Shape :=
  let bits := x.toBits.toNat
  ofFields (bits / Nat.pow 2 63 = 1) (bits / Nat.pow 2 52 % 2048) (bits % Nat.pow 2 52)

end Shape

namespace Dyadic

/-- The value of the mantissa's last place, `2 ^ exponent`, as a fraction of naturals. -/
def unit (d : Dyadic) : Nat × Nat :=
  if 0 ≤ d.exponent then (Nat.pow 2 d.exponent.toNat, 1) else (1, Nat.pow 2 (-d.exponent).toNat)

/-- The number as a fraction of naturals. -/
def fraction (d : Dyadic) : Nat × Nat := (d.mantissa * d.unit.1, d.unit.2)

end Dyadic

end TradingRules
