import TradingRules.Condition.Basic
import TradingRules.Json.Value

/-!
# `Condition.Wire` — the stored form of a condition

A condition is stored as an object that carries its tag and every one of its fields, in a fixed order. A pair
of bounds is stored as a list of two numbers, a field that is not set as null.
-/

namespace TradingRules

/-- The stored form of an operand. -/
def Operand.toJson : Operand → Json
  | .scalar x => .float x
  | .range a b => .arr [.float a, .float b]

/-- The stored form of an indicator's number. -/
def indicatorJson : Option Int → Json
  | none => .null
  | some n => .int n

/-- The stored form of a field's name that may be missing. -/
def fieldJson : Option String → Json
  | none => .null
  | some s => .str s

/-- The stored form of an offset. -/
def Offset.toJson (i : Offset) : Json := .int i.val

/-- The stored form of a leaf. -/
def Leaf.toJson (l : Leaf) : Json :=
  let tag := ("type", .str l.kind.name)
  match l with
  | .threshold t => .obj
      [tag, ("indicatorRef", indicatorJson t.indicator), ("field", .str t.field),
       ("operator", .str t.comparison.name), ("value", t.operand.toJson), ("index", Offset.toJson t.index)]
  | .cross c => .obj
      [tag, ("indicatorRef", indicatorJson c.indicator), ("field", .str c.field),
       ("operator", .str c.crossing.name), ("targetRef", indicatorJson c.target),
       ("targetField", fieldJson c.targetField), ("index", Offset.toJson c.index),
       ("targetIndex", Offset.toJson c.targetIndex)]
  | .price p => .obj
      [tag, ("indicatorRef", indicatorJson p.indicator), ("field", .str p.field),
       ("operator", .str p.comparison.name), ("priceField", .str p.price.name),
       ("index", Offset.toJson p.index)]
  | .position p => .obj
      [tag, ("field", .str p.field), ("operator", .str p.comparison.name), ("value", p.operand.toJson)]

namespace Condition

mutual

/-- The stored form of a condition. -/
def toJson : Condition → Json
  | .leaf l => l.toJson
  | .group logic children =>
    .obj [("type", .str groupTag), ("logic", .str logic.name), ("conditions", .arr (toJsonAll children))]

/-- The stored forms of several conditions. -/
def toJsonAll : List Condition → List Json
  | [] => []
  | child :: children => child.toJson :: toJsonAll children

end

theorem toJsonAll_eq_map (cs : List Condition) : toJsonAll cs = cs.map toJson := by
  induction cs with
  | nil => rfl
  | cons c cs ih => simp [toJsonAll, ih]

end Condition

/-- The stored form of a tree. -/
def Group.toJson (g : Group) : Json := g.toCondition.toJson

end TradingRules
