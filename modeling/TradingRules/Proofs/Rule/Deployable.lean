import Mathlib.Data.List.Nodup
import TradingRules.Proofs.Condition.Complete
import TradingRules.Rule.Check

/-!
# `Proofs.Rule.Deployable` — what the check of a strategy decides

A strategy may go live if neither side has more rules than the limit allows, every rule acts for the side that
lists it, no two rules share a number, on whichever sides they stand, and every rule has a complete tree,
whether the rule is active or not. The check finds nothing in exactly these strategies
(`RuleSet.messages_eq_nil_iff`): each of its three parts is empty for its own reason, and the trees are settled
in `Proofs.Condition.Complete`.

## Contents
* `repeated_eq_nil_iff` — no number occurs twice;
* `RuleSet.Deployable` — strategies without defects;
* `RuleSet.messages_eq_nil_iff` — what the check decides.
-/

namespace TradingRules

/-! ## Numbers -/

/-- No number is repeated exactly if the numbers are distinct. -/
theorem repeated_eq_nil_iff (numbers : List Nat) : repeated numbers = [] ↔ numbers.Nodup := by
  rw [repeated, List.filter_eq_nil_iff, List.nodup_iff_count_le_one]
  simp only [List.mem_eraseDups, decide_eq_true_eq, Nat.not_lt]
  constructor
  · intro h n
    by_cases hmem : n ∈ numbers
    · exact h n hmem
    · rw [List.count_eq_zero_of_not_mem hmem]
      exact Nat.zero_le 1
  · intro h n _
    exact h n

/-! ## Trees -/

theorem Rule.defects_eq_nil_iff (limit : Int) (r : Rule) : r.defects limit = [] ↔ r.tree.Complete limit := by
  rw [defects, List.map_eq_nil_iff, Group.defects_eq_nil_iff]

namespace RuleSet

/-! ## The parts of the check -/

theorem sideDefects_eq_nil_iff (rules : RuleSet) (limit : Int) (side : Side) :
    rules.sideDefects limit side = [] ↔
      ((rules.listed side).length : Int) ≤ limit ∧ ∀ r ∈ rules.listed side, r.side = side := by
  simp only [sideDefects, List.append_eq_nil_iff, List.map_eq_nil_iff, List.filter_eq_nil_iff,
    decide_eq_true_eq, ne_eq, not_not]
  refine and_congr_left' ?_
  by_cases hmany : limit < (rules.listed side).length
  · simp [hmany]
  · simp [hmany, Int.not_lt.mp hmany]

theorem numberDefects_eq_nil_iff (rules : RuleSet) :
    rules.numberDefects = [] ↔ (rules.all.map (·.number)).Nodup := by
  rw [← repeated_eq_nil_iff, numberDefects]
  cases repeated (rules.all.map (·.number)) with
  | nil => exact iff_of_true rfl rfl
  | cons n numbers => exact iff_of_false (List.cons_ne_nil _ _) (List.cons_ne_nil _ _)

theorem treeDefects_eq_nil_iff (rules : RuleSet) (limit : Int) :
    rules.all.flatMap (·.defects limit) = [] ↔ ∀ r ∈ rules.all, r.tree.Complete limit := by
  rw [List.flatMap_eq_nil_iff]
  exact forall₂_congr fun r _ => r.defects_eq_nil_iff limit

/-! ## The check -/

/-- A strategy that may go live under limits for the depth of its trees and for the rules of a side. -/
structure Deployable (rules : RuleSet) (depthLimit sideLimit : Int) : Prop where
  /-- No side has too many rules. -/
  length_le : ∀ side, ((rules.listed side).length : Int) ≤ sideLimit
  /-- Every rule acts for the side that lists it. -/
  placed : ∀ side, ∀ r ∈ rules.listed side, r.side = side
  /-- The two sides together number their rules apart. -/
  numbers_nodup : (rules.all.map (·.number)).Nodup
  /-- Active or not, every rule has a complete tree. -/
  tree_complete : ∀ r ∈ rules.all, r.tree.Complete depthLimit

theorem defects_eq_nil_iff (rules : RuleSet) (depthLimit sideLimit : Int) :
    rules.defects depthLimit sideLimit = [] ↔ rules.Deployable depthLimit sideLimit := by
  simp only [defects, List.append_eq_nil_iff, sideDefects_eq_nil_iff, numberDefects_eq_nil_iff,
    treeDefects_eq_nil_iff]
  constructor
  · rintro ⟨⟨⟨⟨hbuys, hbuy⟩, hsells, hsell⟩, hnumbers⟩, htrees⟩
    refine ⟨?_, ?_, hnumbers, htrees⟩
    · intro side
      cases side with
      | buy => exact hbuys
      | sell => exact hsells
    · intro side
      cases side with
      | buy => exact hbuy
      | sell => exact hsell
  · intro h
    exact ⟨⟨⟨⟨h.length_le .buy, h.placed .buy⟩, h.length_le .sell, h.placed .sell⟩, h.numbers_nodup⟩,
      h.tree_complete⟩

instance (rules : RuleSet) (depthLimit sideLimit : Int) : Decidable (rules.Deployable depthLimit sideLimit) :=
  decidable_of_iff _ (rules.defects_eq_nil_iff depthLimit sideLimit)

/-- **The check reports nothing exactly for the strategies that may go live.** -/
theorem messages_eq_nil_iff (rules : RuleSet) (depthLimit sideLimit : Int) :
    (rules.defects depthLimit sideLimit).map RuleDefect.message = [] ↔ rules.Deployable depthLimit sideLimit := by
  rw [List.map_eq_nil_iff, defects_eq_nil_iff]

/-- A rule that tests one metric, and is switched off. -/
def paused (number : Nat) (side : Side) : Rule where
  number
  side
  active := false
  tree := { children := [.leaf (.position { field := "changePercent" })] }

/-- Rules of two sides may go live under two numbers, but not under one, although they are switched off. -/
example :
    RuleSet.Deployable { buying := [paused 1 .buy], selling := [paused 2 .sell] } maxDepth maxRulesPerSide ∧
      ¬RuleSet.Deployable { buying := [paused 1 .buy], selling := [paused 1 .sell] } maxDepth maxRulesPerSide := by
  decide +kernel

end RuleSet

end TradingRules
