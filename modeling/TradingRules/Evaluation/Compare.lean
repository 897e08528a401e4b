import TradingRules.Condition.Basic

/-!
# `Evaluation.Compare` — comparing numbers

All comparisons of numbers are made here. A number that is missing passes no comparison, nor does an operand
of the wrong form: only BETWEEN takes two bounds, in either order and both included, and every other
comparison takes one constant. Equality is exact.

## Contents
* `lesser`, `greater` — the bounds in order;
* `Comparison.holds`, `Comparison.test` — comparisons;
* `Crossing.holds`, `Crossing.test` — crossings between two bars.
-/

namespace TradingRules

/-- The second of two numbers if it is less than the first, which otherwise stands. -/
def lesser (a b : Float) : Float := if b < a then b else a

/-- The second of two numbers if it is greater than the first, which otherwise stands. -/
def greater (a b : Float) : Float := if a < b then b else a

/-- A number lies between two bounds, given in either order. -/
def between (x a b : Float) : Bool := lesser a b ≤ x && x ≤ greater a b

namespace Comparison

/-- A number compares as asked with an operand. -/
def holds (c : Comparison) (x : Float) : Operand → Bool
  | .range a b => match c with
    | .between => TradingRules.between x a b
    | _ => false
  | .scalar y => match c with
    | .gt => y < x
    | .gte => y ≤ x
    | .lt => x < y
    | .lte => x ≤ y
    | .eq => x == y
    | .between => false

/-- `holds`, where the number or the operand may be missing. -/
def test (c : Comparison) (x : Option Float) (operand : Option Operand) : Bool :=
  match x, operand with
  | some x, some operand => c.holds x operand
  | _, _ => false

@[simp] theorem test_none_left (c : Comparison) (operand : Option Operand) : c.test none operand = false := rfl

@[simp] theorem test_none_right (c : Comparison) (x : Option Float) : c.test x none = false := by
  cases x <;> rfl

@[simp] theorem test_some (c : Comparison) (x : Float) (operand : Operand) :
    c.test (some x) (some operand) = c.holds x operand := rfl

/-- `test` for a comparison that is given by name; no other name holds of anything. -/
def testNamed (name : String) (x : Option Float) (operand : Option Operand) : Bool :=
  match ofName? name with
  | some c => c.test x operand
  | none => false

end Comparison

/-- The operand that several numbers make: two are bounds, any other count is none. -/
def Operand.ofList? : List Float → Option Operand
  | [a, b] => some (.range a b)
  | _ => none

namespace Crossing

/-- The first series crosses the second between two bars: it is not beyond it on the earlier one and beyond
it on the later one. -/
def holds (c : Crossing) (previous previousTarget actual target : Float) : Bool :=
  match c with
  | .above => previous ≤ previousTarget && target < actual
  | .below => previousTarget ≤ previous && actual < target

/-- `holds`, where any of the four numbers may be missing. -/
def test (c : Crossing) (previous previousTarget actual target : Option Float) : Bool :=
  match previous, previousTarget, actual, target with
  | some p, some q, some a, some t => c.holds p q a t
  | _, _, _, _ => false

end Crossing

/-- Several outcomes combined. A group without children never passes. -/
def Logic.combine (logic : Logic) (outcomes : List Bool) : Bool :=
  match outcomes with
  | [] => false
  | outcomes => match logic with
    | .and => outcomes.all id
    | .or => outcomes.any id

end TradingRules
