import TradingRules.Condition.Decode
import TradingRules.Condition.Display
import TradingRules.Condition.Wire
import TradingRules.Rule.Basic

/-!
# `Rule.Wire` — rules in words and in their stored form

A rule is stored as an object with its number, side, priority, state and tree; a rule set as an object with
two lists. Reading a rule is as generous as reading a condition.
-/

namespace TradingRules

namespace Rule

/-- The rule in words. -/
def display (r : Rule) : String :=
  "[" ++ (if r.active then "✓" else "✗") ++ "] " ++ r.side.name
    ++ " #" ++ String.ofList (Nat.toDigits 10 r.number)
    ++ " (P" ++ String.ofList (Nat.toDigits 10 r.priority) ++ "): " ++ r.tree.display

/-- The stored form of a rule. -/
def toJson (r : Rule) : Json :=
  .obj [("ruleNo", .int r.number), ("ruleType", .str r.side.name), ("priority", .int r.priority),
        ("isActive", .bool r.active), ("conditions", r.tree.toJson)]

end Rule

/-- The stored form of a rule set. -/
def RuleSet.toJson (rules : RuleSet) : Json :=
  .obj [("buyRules", .arr (rules.buying.map Rule.toJson)), ("sellRules", .arr (rules.selling.map Rule.toJson))]

/-! ## Reading a rule -/

/-- Words that stand for true. -/
def trueWords : List String := ["1", "t", "y", "yes", "on", "true"]

/-- Words that stand for false. -/
def falseWords : List String := ["0", "f", "n", "no", "off", "false"]

/-- The truth value an integer stands for. -/
def truthOfInteger : Int → Checked Bool
  | 0 => .ok false
  | 1 => .ok true
  | _ => .fail .unreadableTruthValue

/-- A truth value, or what counts as one. -/
def readTruth : Json → Checked Bool
  | .bool b => .ok b
  | .int n => truthOfInteger n
  | .float x => match integerOfFloat x with
    | .ok n => truthOfInteger n
    | .bad [⟨.oversizedInteger, []⟩] => .fail .unreadableTruthValue
    | .bad _ => .fail .notATruthValue
  | .str s =>
    let word := String.ofList (s.toList.map Char.toLower)
    if trueWords.contains word then .ok true
    else if falseWords.contains word then .ok false
    else .fail .unreadableTruthValue
  | _ => .fail .notATruthValue

namespace Key

/-- The number of a rule. -/
def number : Key := ⟨"ruleNo", "rule_no"⟩
/-- The side of a rule. -/
def side : Key := ⟨"ruleType", "rule_type"⟩
/-- The priority of a rule. -/
def priority : Key := .plain "priority"
/-- Whether a rule is active. -/
def active : Key := ⟨"isActive", "is_active"⟩
/-- The tree of a rule. -/
def conditions : Key := .plain "conditions"
/-- The buying rules of a strategy. -/
def buying : Key := ⟨"buyRules", "buy_rules"⟩
/-- The selling rules of a strategy. -/
def selling : Key := ⟨"sellRules", "sell_rules"⟩

end Key

/-- A rule. -/
def Rule.ofJson : Json → Checked Rule
  | .obj fields =>
    Rule.mk
      <$> Key.number.require readNatural fields
      <*> Key.side.require (readName Side.ofName?) fields
      <*> Key.priority.read 0 readNatural fields
      <*> Key.active.read true readTruth fields
      <*> Key.conditions.read {} Group.ofJson fields
  | _ => .fail .notAnObject

end TradingRules
