import TradingRules.Decimal.Shortest

/-!
# `Decimal.Style` — how a double is laid out as text

A `Style` holds the decisions of one output format: how many digits, which magnitudes are written
positionally, what marks a whole number, and the words for the special values. `Style.write` lays digits
out by those decisions and knows no format of its own.
-/

namespace TradingRules

namespace Decimal

/-- The decisions of one number format. -/
structure Style where
  /-- Significant digits; `none` for the fewest that read back. -/
  precision : Option Nat
  /-- Least power of ten of a first digit that is still written positionally. -/
  positionalFrom : Int
  /-- First power of ten that is no longer written positionally. -/
  positionalBelow : Int
  /-- What follows a whole number that is written positionally. -/
  whole : String
  /-- The word for infinity; a minus sign goes before the negative one. -/
  infinity : String
  /-- The word for a value that is no number. -/
  nan : String
deriving DecidableEq, Repr

/-- The digits without zeros at the end; zero itself keeps one. -/
def significant (ds : List Char) : List Char :=
  match (ds.reverse.dropWhile (· = '0')).reverse with
  | [] => ['0']
  | kept => kept

/-- `e`, a sign, and at least two digits. -/
def exponentMark (e : Int) : List Char :=
  let ds := Nat.toDigits 10 e.natAbs
  'e' :: (if e < 0 then '-' else '+') :: (if ds.length < 2 then '0' :: ds else ds)

namespace Style

/-- One digit before the point and the rest after it. -/
def scientific (ds : List Char) (lead : Int) : List Char :=
  match ds with
  | [] => exponentMark lead
  | [d] => d :: exponentMark lead
  | d :: rest => d :: '.' :: rest ++ exponentMark lead

/-- The point where the power of ten puts it. -/
def positional (style : Style) (ds : List Char) (lead : Int) : List Char :=
  if lead < 0 then
    '0' :: '.' :: List.replicate (-lead - 1).toNat '0' ++ ds
  else
    let before := lead.toNat + 1
    if ds.length ≤ before then
      ds ++ List.replicate (before - ds.length) '0' ++ style.whole.toList
    else
      ds.take before ++ '.' :: ds.drop before

/-- Lays a decimal out. -/
def layout (style : Style) (d : Decimal) : List Char :=
  let ds := significant d.digits
  let lead := if d.coefficient = 0 then 0 else d.leading
  if style.positionalFrom ≤ lead ∧ lead < style.positionalBelow then style.positional ds lead
  else scientific ds lead

/-- The text of a double. -/
def write (style : Style) (x : Float) : List Char :=
  let signed (negative : Bool) (text : List Char) := if negative then '-' :: text else text
  match Shape.of x with
  | .nan => style.nan.toList
  | .infinite negative => signed negative style.infinity.toList
  | .finite negative size =>
    signed negative <| style.layout <|
      match style.precision with
      | none => size.shortest
      | some n => size.rounded n

/-- The text of a double, as a string. -/
def text (style : Style) (x : Float) : String := String.ofList (style.write x)

end Style

end Decimal

end TradingRules
