import TradingRules.Condition.Check
import TradingRules.Rule.Basic

/-!
# `Rule.Check` — is a strategy complete?

A rule set is checked for the number of rules on each side, for rules that are listed on the wrong side, for
rule numbers that occur twice, and for the defects of every rule's tree.
-/

namespace TradingRules

/-- The most rules a side may have. -/
def maxRulesPerSide : Nat := 5

/-- One thing that is wrong with a rule set. -/
inductive RuleDefect where
  | tooMany (side : Side) (count : Nat) (limit : Int)
  /-- A rule's own side is not the one it is listed under. -/
  | misplaced (rule : Nat) (own listed : Side)
  /-- Numbers that several rules share. -/
  | duplicates (numbers : List Nat)
  /-- A defect of a rule's tree. -/
  | tree (side : Side) (rule : Nat) (defect : Defect)
deriving DecidableEq, Repr

/-- A defect in words. -/
def RuleDefect.message : RuleDefect → String
  | .tooMany side count limit =>
    "Too many " ++ side.name ++ " rules: " ++ toString count ++ " (max " ++ toString limit ++ ")"
  | .misplaced rule own listed =>
    "Rule #" ++ toString rule ++ " has type " ++ own.name ++ " but is listed with " ++ listed.name ++ " rules"
  | .duplicates numbers => "Duplicate rule numbers found: " ++ ", ".intercalate (numbers.map toString)
  | .tree side rule defect => "[" ++ side.name ++ " Rule #" ++ toString rule ++ "] " ++ defect.message

/-- The defects of a rule's tree. -/
def Rule.defects (limit : Int) (r : Rule) : List RuleDefect :=
  (r.tree.defects limit).map (.tree r.side r.number)

/-- The elements that occur more than once, in the order of their first occurrence. -/
def repeated (numbers : List Nat) : List Nat :=
  numbers.eraseDups.filter fun n => 1 < numbers.count n

namespace RuleSet

/-- What is wrong with the list of one side. -/
def sideDefects (rules : RuleSet) (limit : Int) (side : Side) : List RuleDefect :=
  let listed := rules.listed side
  (if limit < listed.length then [.tooMany side listed.length limit] else [])
    ++ (listed.filter (·.side ≠ side)).map fun r => .misplaced r.number r.side side

/-- What is wrong with the numbers of the rules. -/
def numberDefects (rules : RuleSet) : List RuleDefect :=
  match repeated (rules.all.map (·.number)) with
  | [] => []
  | numbers => [.duplicates numbers]

/-- What is wrong with a rule set. -/
def defects (rules : RuleSet) (depthLimit sideLimit : Int) : List RuleDefect :=
  rules.sideDefects sideLimit .buy ++ rules.sideDefects sideLimit .sell ++ rules.numberDefects
    ++ rules.all.flatMap (·.defects depthLimit)

end RuleSet

end TradingRules
