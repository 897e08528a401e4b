/-!
# `Condition.Basic` — condition trees

A condition is a leaf that compares two numbers, or a group of conditions that are combined by AND or OR. A
leaf looks at most `maxOffset` bars back; the type of offsets admits no more.

## Contents
* `Logic`, `Comparison`, `Crossing`, `PriceField` — the closed vocabularies, each with its stored names;
* `Operand` — a constant or a pair of bounds;
* `Threshold`, `Cross`, `PriceTest`, `PositionTest`, `Leaf` — the four kinds of leaf;
* `Condition`, `Group` — trees, and trees whose root is a group;
* `Condition.depth` — nesting depth.
-/

namespace TradingRules

/-! ## Vocabularies -/

/-- How a group combines its children. -/
inductive Logic where
  | and
  | or
deriving DecidableEq, Repr, Inhabited

/-- How a leaf compares a number with its operand. -/
inductive Comparison where
  | gt
  | gte
  | lt
  | lte
  | eq
  | between
deriving DecidableEq, Repr, Inhabited

/-- The direction in which one series crosses another. -/
inductive Crossing where
  | above
  | below
deriving DecidableEq, Repr, Inhabited

/-- A price of a bar. -/
inductive PriceField where
  | closing
  | opening
  | highest
  | lowest
deriving DecidableEq, Repr, Inhabited

/-- The stored name of a combinator. -/
def Logic.name : Logic → String
  | .and => "AND"
  | .or => "OR"

/-- The stored name of a comparison. -/
def Comparison.name : Comparison → String
  | .gt => "GT"
  | .gte => "GTE"
  | .lt => "LT"
  | .lte => "LTE"
  | .eq => "EQ"
  | .between => "BETWEEN"

/-- The stored name of a crossing. -/
def Crossing.name : Crossing → String
  | .above => "CROSS_ABOVE"
  | .below => "CROSS_BELOW"

/-- The stored name of a price. -/
def PriceField.name : PriceField → String
  | .closing => "closePrice"
  | .opening => "openPrice"
  | .highest => "highPrice"
  | .lowest => "lowPrice"

/-- The combinator with a stored name. -/
def Logic.ofName? : String → Option Logic
  | "AND" => some .and
  | "OR" => some .or
  | _ => none

/-- The comparison with a stored name. -/
def Comparison.ofName? : String → Option Comparison
  | "GT" => some .gt
  | "GTE" => some .gte
  | "LT" => some .lt
  | "LTE" => some .lte
  | "EQ" => some .eq
  | "BETWEEN" => some .between
  | _ => none

/-- The crossing with a stored name. -/
def Crossing.ofName? : String → Option Crossing
  | "CROSS_ABOVE" => some .above
  | "CROSS_BELOW" => some .below
  | _ => none

/-- The price with a stored name. -/
def PriceField.ofName? : String → Option PriceField
  | "closePrice" => some .closing
  | "openPrice" => some .opening
  | "highPrice" => some .highest
  | "lowPrice" => some .lowest
  | _ => none

@[simp] theorem Logic.ofName?_name (l : Logic) : Logic.ofName? l.name = some l := by cases l <;> rfl

@[simp] theorem Comparison.ofName?_name (c : Comparison) : Comparison.ofName? c.name = some c := by
  cases c <;> rfl

@[simp] theorem Crossing.ofName?_name (c : Crossing) : Crossing.ofName? c.name = some c := by cases c <;> rfl

@[simp] theorem PriceField.ofName?_name (p : PriceField) : PriceField.ofName? p.name = some p := by
  cases p <;> rfl

/-! ## Leaves -/

/-- The most completed bars a leaf may look back. -/
def maxOffset : Nat := 4

/-- Bars back from the latest one. -/
abbrev Offset := Fin (maxOffset + 1)

/-- The offset of the current bar. -/
def Offset.current : Offset := ⟨0, Nat.succ_pos _⟩

/-- What a number is compared with: a constant, or two bounds in either order. -/
inductive Operand where
  | scalar (x : Float)
  | range (a b : Float)
deriving DecidableEq

/-- Compares an indicator field with a constant. -/
structure Threshold where
  indicator : Option Int := none
  field : String := ""
  comparison : Comparison := .gt
  operand : Operand := .scalar 0.0
  index : Offset := .current
deriving DecidableEq

/-- Detects that one indicator field crosses another between two bars. -/
structure Cross where
  indicator : Option Int := none
  field : String := ""
  crossing : Crossing := .above
  target : Option Int := none
  targetField : Option String := none
  index : Offset := .current
  targetIndex : Offset := .current
deriving DecidableEq

/-- Compares an indicator field with a price of the same bar. -/
structure PriceTest where
  indicator : Option Int := none
  field : String := ""
  comparison : Comparison := .gt
  price : PriceField := .closing
  index : Offset := .current
deriving DecidableEq

/-- Compares a metric of the open position with a constant. -/
structure PositionTest where
  field : String := ""
  comparison : Comparison := .lte
  operand : Operand := .scalar 0.0
deriving DecidableEq

/-- The four kinds of leaf. -/
inductive LeafKind where
  | threshold
  | cross
  | price
  | position
deriving DecidableEq, Repr

/-- The stored tag of a kind of leaf. -/
def LeafKind.name : LeafKind → String
  | .threshold => "THRESHOLD"
  | .cross => "CROSS"
  | .price => "PRICE"
  | .position => "POSITION"

/-- The kind of leaf with a stored tag. -/
def LeafKind.ofName? : String → Option LeafKind
  | "THRESHOLD" => some .threshold
  | "CROSS" => some .cross
  | "PRICE" => some .price
  | "POSITION" => some .position
  | _ => none

@[simp] theorem LeafKind.ofName?_name (k : LeafKind) : LeafKind.ofName? k.name = some k := by cases k <;> rfl

/-- The stored tag of a group. -/
def groupTag : String := "GROUP"

/-- One comparison. -/
inductive Leaf where
  | threshold (t : Threshold)
  | cross (c : Cross)
  | price (p : PriceTest)
  | position (p : PositionTest)
deriving DecidableEq

/-- The kind of a leaf. -/
def Leaf.kind : Leaf → LeafKind
  | .threshold _ => .threshold
  | .cross _ => .cross
  | .price _ => .price
  | .position _ => .position

/-! ## Trees -/

/-- A condition tree. -/
inductive Condition where
  | leaf (l : Leaf)
  | group (logic : Logic) (children : List Condition)
deriving Inhabited

/-- A tree whose root is a group, as every rule owns one. -/
structure Group where
  logic : Logic := .and
  children : List Condition := []
deriving Inhabited

namespace Condition

mutual

/-- Decides whether two conditions are the same. -/
def decEq : (a b : Condition) → Decidable (a = b)
  | .leaf x, .leaf y => if h : x = y then isTrue (h ▸ rfl) else isFalse fun e => h (by injection e)
  | .leaf _, .group _ _ => isFalse nofun
  | .group _ _, .leaf _ => isFalse nofun
  | .group l xs, .group m ys =>
    if hl : l = m then
      match decEqAll xs ys with
      | isTrue h => isTrue (hl ▸ h ▸ rfl)
      | isFalse h => isFalse fun e => h (by injection e)
    else isFalse fun e => hl (by injection e)

/-- Decides whether two lists of conditions are the same. -/
def decEqAll : (a b : List Condition) → Decidable (a = b)
  | [], [] => isTrue rfl
  | [], _ :: _ => isFalse nofun
  | _ :: _, [] => isFalse nofun
  | x :: xs, y :: ys => match decEq x y, decEqAll xs ys with
    | isTrue h, isTrue t => isTrue (h ▸ t ▸ rfl)
    | isFalse h, _ => isFalse fun e => h (by injection e)
    | _, isFalse t => isFalse fun e => t (by injection e)

end

instance : DecidableEq Condition := decEq

/-- The condition is a group. -/
def isGroup : Condition → Bool
  | .leaf _ => false
  | .group _ _ => true

mutual

/-- Nesting depth: a leaf has none, a group one more than its deepest child. -/
def depth : Condition → Nat
  | .leaf _ => 0
  | .group _ children => 1 + deepest children

/-- The depth of the deepest of several conditions. -/
def deepest : List Condition → Nat
  | [] => 0
  | child :: children => max child.depth (deepest children)

end

theorem depth_le_deepest {c : Condition} {cs : List Condition} (h : c ∈ cs) : c.depth ≤ deepest cs := by
  induction h with
  | head cs => rw [deepest]; exact Nat.le_max_left ..
  | tail b _ ih => rw [deepest]; exact Nat.le_trans ih (Nat.le_max_right ..)

end Condition

instance : DecidableEq Group := fun a b =>
  match a, b with
  | ⟨l, xs⟩, ⟨m, ys⟩ => decidable_of_iff (l = m ∧ xs = ys) (by simp)

/-- A tree as a condition. -/
def Group.toCondition (g : Group) : Condition := .group g.logic g.children

/-- Nesting depth of a tree. -/
def Group.depth (g : Group) : Nat := g.toCondition.depth

end TradingRules
