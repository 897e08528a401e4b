import TradingRules.Condition.Basic
import TradingRules.Json.Message
import TradingRules.Position.Metric

/-!
# `Condition.Placeholder` — nodes to start from

A new rule starts from an empty group, a new condition from a placeholder of its kind. Placeholders are
incomplete on purpose, so that the check of a tree names what is still to be filled in; only a position test
starts as a complete stop loss.
-/

namespace TradingRules

/-- The empty AND group every tree starts from. -/
def Group.placeholder : Group := {}

/-- The leaf of a kind that is inserted before it is filled in. -/
def Leaf.placeholder : LeafKind → Leaf
  | .threshold => .threshold {}
  | .cross => .cross {}
  | .price => .price {}
  | .position => .position { field := Metric.change.name, operand := .scalar (-5.0) }

/-- A value asks for a placeholder but names no kind of leaf. -/
structure UnknownKind where
  value : Json
deriving DecidableEq

/-- The placeholder of the kind that a value names. -/
def Leaf.placeholderFor (value : Json) : Except UnknownKind Leaf :=
  match value with
  | .str name => match LeafKind.ofName? name with
    | some kind => .ok (placeholder kind)
    | none => .error ⟨value⟩
  | _ => .error ⟨value⟩

/-- The error in words. -/
def UnknownKind.message (e : UnknownKind) : String := "Unsupported leaf condition type: " ++ e.value.name

end TradingRules
