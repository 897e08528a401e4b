import TradingRules.Json.Value
import TradingRules.Text.Numeral

/-!
# `Market.Reading` — raw readings as numbers

Indicator values, prices and metrics arrive as raw values of any kind. Numbers, truth values and text that
reads as a number are numbers; null, what is no number, and anything else are missing. Missing data is never
an error: reading fails only if the data does not have the shape it must have, or if an integer is beyond the
range of doubles.
-/

namespace TradingRules

/-- Why raw data cannot be read. -/
inductive ReadError where
  /-- Fields were expected where there is no object. -/
  | notAnObject
  /-- An integer is beyond the range of doubles. -/
  | tooLarge
deriving DecidableEq, Repr

/-- A number that may be missing, as a value. -/
def numberJson : Option Float → Json
  | none => .null
  | some x => .float x

/-- A number that may be missing. NaN counts as missing. -/
def present (x : Float) : Option Float := if x.isNaN then none else some x

/-- A raw value as a double, where it is one; NaN is not told apart here. -/
def Json.number : Json → Except ReadError (Option Float)
  | .bool b => .ok (some (if b then 1.0 else 0.0))
  | .int n => match Decimal.floatOfInt? n with
    | some x => .ok (some x)
    | none => .error .tooLarge
  | .float x => .ok (some x)
  | .str s => .ok (Text.number? (Text.anyScript s.toList))
  | .null | .arr _ | .obj _ => .ok none

/-- A raw value as a reading. -/
def Json.reading (value : Json) : Except ReadError (Option Float) := value.number.map (·.bind present)

/-- The reading of a field among others; a field that is not there is missing. -/
def fieldReading (fields : List (String × Json)) (name : String) : Except ReadError (Option Float) :=
  ((fields.lookup name).getD .null).reading

end TradingRules
