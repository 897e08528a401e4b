import TradingRules.Condition.Basic

/-!
# `Rule.Basic` — rules and rule sets

A rule owns one tree and says what to do when it passes. A strategy lists its buying and its selling rules
apart. Among the active rules of a list the one with the least priority number comes first; rules of one
priority keep the order of the list.
-/

namespace TradingRules

/-- What a rule does when it passes. -/
inductive Side where
  | buy
  | sell
deriving DecidableEq, Repr, Inhabited

/-- The stored name of a side. -/
def Side.name : Side → String
  | .buy => "BUY"
  | .sell => "SELL"

/-- The side with a stored name. -/
def Side.ofName? : String → Option Side
  | "BUY" => some .buy
  | "SELL" => some .sell
  | _ => none

@[simp] theorem Side.ofName?_name (s : Side) : Side.ofName? s.name = some s := by cases s <;> rfl

/-- The list of rules that a request names: every name but that of the buying side asks for the selling
rules. -/
def Side.requested (name : String) : Side := if name = Side.buy.name then .buy else .sell

/-- A rule of a strategy. -/
structure Rule where
  number : Nat
  side : Side
  priority : Nat := 0
  active : Bool := true
  tree : Group := {}
deriving DecidableEq, Inhabited

/-- The rules of one strategy. -/
structure RuleSet where
  buying : List Rule := []
  selling : List Rule := []
deriving DecidableEq, Inhabited

/-- Rules from the least priority number up; equal priorities keep their order. -/
def byPriority (rules : List Rule) : List Rule := rules.mergeSort fun a b => a.priority ≤ b.priority

namespace RuleSet

/-- The rules listed for one side. -/
def listed (rules : RuleSet) : Side → List Rule
  | .buy => rules.buying
  | .sell => rules.selling

/-- The active rules of one side, in the order in which they are tried. -/
def active (rules : RuleSet) (side : Side) : List Rule :=
  byPriority ((rules.listed side).filter (·.active))

/-- All rules, those of the buying side first. -/
def all (rules : RuleSet) : List Rule := rules.buying ++ rules.selling

end RuleSet

end TradingRules
