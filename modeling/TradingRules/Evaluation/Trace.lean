import TradingRules.Condition.Wire
import TradingRules.Evaluation.Compare
import TradingRules.Market.Reading

/-!
# `Evaluation.Trace` — a record of an evaluation

A trace has the shape of the condition it was made from. A leaf records the numbers that were compared, a
group only its outcome; both say whether they passed. What a leaf records is enough to find its outcome again
without the data.

## Contents
* `Bound`, `LeafTrace`, `Trace`, `GroupTrace`;
* `Trace.passed`, `Trace.leaves`;
* `Trace.toJson` — the stored form.
-/

namespace TradingRules

/-- What a leaf's number was compared with, as far as it is of the form the comparison takes. -/
inductive Bound where
  | value (x : Option Float)
  | range (a b : Float)
deriving DecidableEq

/-- The operand of a comparison as a trace records it. -/
def Operand.bound (c : Comparison) : Operand → Bound
  | .range a b => match c with
    | .between => .range a b
    | _ => .value none
  | .scalar x => match c with
    | .between => .value none
    | _ => .value (if x.isNaN then none else some x)

/-- The record of one leaf. -/
inductive LeafTrace where
  | threshold (passed : Bool) (indicator : Option Int) (field : String) (comparison : Comparison)
      (actual : Option Float) (bound : Bound)
  | cross (passed : Bool) (indicator : Option Int) (field : String) (crossing : Crossing)
      (actual target previous previousTarget : Option Float)
  | price (passed : Bool) (indicator : Option Int) (field : String) (comparison : Comparison)
      (compared : PriceField) (actual target : Option Float)
  | position (passed : Bool) (field : String) (comparison : Comparison) (actual : Option Float)
      (bound : Bound)
deriving DecidableEq

namespace LeafTrace

/-- The leaf passed. -/
def passed : LeafTrace → Bool
  | .threshold passed .. | .cross passed .. | .price passed .. | .position passed .. => passed

/-- The kind of the leaf. -/
def kind : LeafTrace → LeafKind
  | .threshold .. => .threshold
  | .cross .. => .cross
  | .price .. => .price
  | .position .. => .position

end LeafTrace

/-- The record of a condition. -/
inductive Trace where
  | leaf (l : LeafTrace)
  | group (logic : Logic) (passed : Bool) (children : List Trace)
deriving Inhabited

/-- The record of a tree. -/
structure GroupTrace where
  logic : Logic
  passed : Bool := false
  children : List Trace := []
deriving Inhabited

namespace Trace

/-- The condition passed. -/
def passed : Trace → Bool
  | .leaf l => l.passed
  | .group _ passed _ => passed

mutual

/-- The records of the leaves, from left to right. -/
def leaves : Trace → List LeafTrace
  | .leaf l => [l]
  | .group _ _ children => leavesAll children

/-- The records of the leaves of several conditions. -/
def leavesAll : List Trace → List LeafTrace
  | [] => []
  | child :: children => child.leaves ++ leavesAll children

end

end Trace

/-- The record of a tree as one of a condition. -/
def GroupTrace.toTrace (g : GroupTrace) : Trace := .group g.logic g.passed g.children

/-! ## Stored form -/

/-- The fields of a bound: two bounds leave the single target empty. -/
def Bound.fields : Bound → List (String × Json)
  | .value x => [("targetValue", numberJson x)]
  | .range a b => [("targetValue", .null), ("targetRange", .arr [.float a, .float b])]

/-- The fields that every leaf's record starts with. -/
def leafFields (kind : LeafKind) (passed : Bool) (indicator : Option Int) (field operator : String)
    (actual : Option Float) : List (String × Json) :=
  [("type", .str kind.name), ("passed", .bool passed), ("indicatorRef", indicatorJson indicator),
   ("field", .str field), ("operator", .str operator), ("actualValue", numberJson actual)]

/-- The stored form of a leaf's record. -/
def LeafTrace.toJson : LeafTrace → Json
  | .threshold passed indicator field comparison actual bound =>
    .obj (leafFields .threshold passed indicator field comparison.name actual ++ bound.fields)
  | .cross passed indicator field crossing actual target previous previousTarget =>
    .obj (leafFields .cross passed indicator field crossing.name actual ++
      [("targetValue", numberJson target), ("prevValue", numberJson previous),
       ("prevTargetValue", numberJson previousTarget)])
  | .price passed indicator field comparison compared actual target =>
    .obj (leafFields .price passed indicator field comparison.name actual ++
      [("targetValue", numberJson target), ("priceField", .str compared.name)])
  | .position passed field comparison actual bound =>
    .obj (leafFields .position passed none field comparison.name actual ++ bound.fields)

namespace Trace

mutual

/-- The stored form of a record. -/
def toJson : Trace → Json
  | .leaf l => l.toJson
  | .group logic passed children =>
    .obj [("type", .str groupTag), ("logic", .str logic.name), ("passed", .bool passed),
      ("conditions", .arr (toJsonAll children))]

/-- The stored forms of several records. -/
def toJsonAll : List Trace → List Json
  | [] => []
  | child :: children => child.toJson :: toJsonAll children

end

end Trace

/-- The stored form of a tree's record. -/
def GroupTrace.toJson (g : GroupTrace) : Json := g.toTrace.toJson

end TradingRules
