import TradingRules.Rule.Basic

/-!
# `Rule.Agreement` — equality up to a comparison of doubles

Two trees agree if they have one shape and equal parts, where the doubles in operands are compared by a given
relation. Equality of doubles is not reflexive and does not tell the zeros apart, so what counts as an equal
operand is left to the caller: `numericallyEqual` compares as numbers do, `unchanged` also takes a double to
agree with itself.
-/

namespace TradingRules

/-- Doubles that compare equal. -/
def numericallyEqual (x y : Float) : Bool := x == y

/-- Doubles that compare equal or are the same. -/
def unchanged (x y : Float) : Bool := x == y || decide (x = y)

variable (eq : Float → Float → Bool)

/-- Operands of one form with agreeing doubles. -/
def Operand.agrees : Operand → Operand → Bool
  | .scalar x, .scalar y => eq x y
  | .range a b, .range c d => eq a c && eq b d
  | _, _ => false

/-- Leaves whose parts are equal, and whose operands agree. -/
def Leaf.agrees : Leaf → Leaf → Bool
  | .threshold s, .threshold t =>
    s.operand.agrees eq t.operand && decide ({ s with operand := t.operand } = t)
  | .position p, .position q =>
    p.operand.agrees eq q.operand && decide ({ p with operand := q.operand } = q)
  | .cross c, .cross d => decide (c = d)
  | .price p, .price q => decide (p = q)
  | _, _ => false

namespace Condition

mutual

/-- Conditions of one shape whose leaves agree. -/
def agrees : Condition → Condition → Bool
  | .leaf l, .leaf m => l.agrees eq m
  | .group l xs, .group m ys => decide (l = m) && agreesAll xs ys
  | _, _ => false

/-- Lists of conditions that agree one by one. -/
def agreesAll : List Condition → List Condition → Bool
  | [], [] => true
  | x :: xs, y :: ys => agrees x y && agreesAll xs ys
  | _, _ => false

end

end Condition

/-- Trees that agree. -/
def Group.agrees (g h : Group) : Bool := g.toCondition.agrees eq h.toCondition

/-- Rules whose parts are equal, and whose trees agree. -/
def Rule.agrees (r s : Rule) : Bool := r.tree.agrees eq s.tree && decide ({ r with tree := s.tree } = s)

/-- Lists of rules that agree one by one. -/
def rulesAgree (rs ss : List Rule) : Bool :=
  rs.length == ss.length && (rs.zip ss).all fun (r, s) => r.agrees eq s

/-- Rule sets that agree. -/
def RuleSet.agrees (a b : RuleSet) : Bool :=
  rulesAgree eq a.buying b.buying && rulesAgree eq a.selling b.selling

end TradingRules
