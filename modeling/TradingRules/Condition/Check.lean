import TradingRules.Condition.Basic

/-!
# `Condition.Check` — is a tree complete?

A tree that is being edited may be incomplete: groups without children, leaves without an indicator or a
field, more nesting than is allowed. `Condition.defects` lists every such defect in the order of a walk that
visits a group before its children.
-/

namespace TradingRules

/-- The deepest nesting of groups a strategy may have. -/
def maxDepth : Nat := 3

/-- A part that a leaf is missing. -/
inductive Part where
  | indicator
  | field
  | target
  | targetField
deriving DecidableEq, Repr

/-- One thing that is wrong with a tree. -/
inductive Defect where
  | emptyGroup
  /-- A group lies deeper than the limit allows. -/
  | tooDeep (limit : Int)
  /-- A leaf is missing one of its parts. -/
  | incomplete (kind : LeafKind) (part : Part)
deriving DecidableEq, Repr

/-- A missing part in words. -/
def Part.message : LeafKind → Part → String
  | .cross, .indicator => "Cross: source indicator required"
  | .cross, .field => "Cross: source field required"
  | .cross, .target => "Cross: target indicator required"
  | .cross, .targetField => "Cross: target field required"
  | .threshold, .indicator => "Threshold: indicator required"
  | .threshold, _ => "Threshold: field required"
  | .price, .indicator => "Price: indicator required"
  | .price, _ => "Price: field required"
  | .position, _ => "Position: field required"

/-- A defect in words. -/
def Defect.message : Defect → String
  | .emptyGroup => "Empty condition group found"
  | .tooDeep limit => "Max nesting depth (" ++ toString limit ++ ") exceeded"
  | .incomplete kind part => part.message kind

/-- The part, if it is missing. -/
def Part.ifMissing (part : Part) (missing : Bool) : List Part := if missing then [part] else []

/-- The parts a leaf is missing. -/
def Leaf.missing : Leaf → List Part
  | .threshold t => Part.indicator.ifMissing t.indicator.isNone ++ Part.field.ifMissing t.field.isEmpty
  | .cross c =>
    Part.indicator.ifMissing c.indicator.isNone ++ Part.field.ifMissing c.field.isEmpty
      ++ Part.target.ifMissing c.target.isNone ++ Part.targetField.ifMissing (c.targetField.getD "").isEmpty
  | .price p => Part.indicator.ifMissing p.indicator.isNone ++ Part.field.ifMissing p.field.isEmpty
  | .position p => Part.field.ifMissing p.field.isEmpty

/-- The defects of a leaf. -/
def Leaf.defects (l : Leaf) : List Defect := l.missing.map (.incomplete l.kind)

/-- The defects of a group itself that lies at `depth`. -/
def groupDefects (limit : Int) (depth : Nat) (children : List Condition) : List Defect :=
  (if children.isEmpty then [.emptyGroup] else []) ++ (if limit < depth then [.tooDeep limit] else [])

namespace Condition

mutual

/-- The defects of a condition that lies at `depth`. -/
def defects (limit : Int) (depth : Nat) : Condition → List Defect
  | .leaf l => l.defects
  | .group _ children => groupDefects limit depth children ++ defectsAll limit (depth + 1) children

/-- The defects of several conditions that lie at `depth`. -/
def defectsAll (limit : Int) (depth : Nat) : List Condition → List Defect
  | [] => []
  | child :: children => child.defects limit depth ++ defectsAll limit depth children

end

theorem defectsAll_eq_flatMap (limit : Int) (depth : Nat) (cs : List Condition) :
    defectsAll limit depth cs = cs.flatMap (defects limit depth) := by
  induction cs with
  | nil => rfl
  | cons c cs ih => simp [defectsAll, ih]

end Condition

/-- The defects of a tree, whose root lies at depth one. -/
def Group.defects (limit : Int) (g : Group) : List Defect := g.toCondition.defects limit 1

/-- A group at a depth may receive another group. -/
def canNest (depth limit : Int) : Bool := depth < limit

end TradingRules
