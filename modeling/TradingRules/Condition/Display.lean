import TradingRules.Condition.Basic
import TradingRules.Decimal.Style
import TradingRules.Json.Printer

/-!
# `Condition.Display` — conditions in words

A condition is shown on one line: leaves as comparisons, groups as their children joined by the combinator
and in brackets. A leaf without a field shows a question mark, one without an indicator shows `None`.
-/

namespace TradingRules

/-- Numbers in displays: six significant digits, without zeros at the end. -/
def displayNumber : Decimal.Style where
  precision := some 6
  positionalFrom := -4
  positionalBelow := 6
  whole := ""
  infinity := "inf"
  nan := "nan"

/-- The sign of a comparison. -/
def Comparison.label : Comparison → String
  | .gt => ">"
  | .gte => ">="
  | .lt => "<"
  | .lte => "<="
  | .eq => "="
  | .between => "between"

/-- A crossing in words. -/
def Crossing.label : Crossing → String
  | .above => "crosses above"
  | .below => "crosses below"

/-- A price in words. -/
def PriceField.label : PriceField → String
  | .closing => "Close"
  | .opening => "Open"
  | .highest => "High"
  | .lowest => "Low"

/-- A constant, or two bounds. -/
def Operand.display : Operand → String
  | .scalar x => displayNumber.text x
  | .range a b => displayNumber.text a ++ " and " ++ displayNumber.text b

/-- An indicator's number. -/
def displayIndicator : Option Int → String
  | none => "None"
  | some n => String.ofList (Json.writeInt n)

/-- A field's name. -/
def displayField (field : String) : String := if field.isEmpty then "?" else field

/-- A field of an indicator. -/
def displaySeries (indicator : Option Int) (field : String) : String :=
  "ref(" ++ displayIndicator indicator ++ ")." ++ displayField field

/-- A leaf in words. -/
def Leaf.display : Leaf → String
  | .threshold t =>
    displaySeries t.indicator t.field ++ " " ++ t.comparison.label ++ " " ++ t.operand.display
  | .cross c =>
    displaySeries c.indicator c.field ++ " " ++ c.crossing.label ++ " "
      ++ displaySeries c.target (c.targetField.getD "")
  | .price p => displaySeries p.indicator p.field ++ " " ++ p.comparison.label ++ " " ++ p.price.label
  | .position p =>
    "position." ++ displayField p.field ++ " " ++ p.comparison.label ++ " " ++ p.operand.display

namespace Condition

mutual

/-- A condition in words. -/
def display : Condition → String
  | .leaf l => l.display
  | .group logic children => "(" ++ (" " ++ logic.name ++ " ").intercalate (displayAll children) ++ ")"

/-- Several conditions, each in words. -/
def displayAll : List Condition → List String
  | [] => []
  | child :: children => child.display :: displayAll children

end

end Condition

/-- A tree in words. -/
def Group.display (g : Group) : String := g.toCondition.display

end TradingRules
