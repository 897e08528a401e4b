import TradingRules.Condition.Basic

/-!
# `Proofs.Condition.Leaves` — trees and their leaves

Conditions are trees whose groups hold lists of trees, so a proof about every condition goes by one principle:
the property holds of leaves, and of a group whose children have it. `Condition.leaves` are the leaves from
left to right; how far a tree looks back and whether it tests the position are facts about them alone.

## Contents
* `Condition.treeInduction` — the principle;
* `Condition.leaves` — the leaves;
* `Leaf.reach`, `Condition.reach` — the bar furthest back that is read;
* `Condition.testsPosition` — a leaf reads a metric of the position.
-/

namespace TradingRules

namespace Condition

/-- **Induction over trees.** -/
@[elab_as_elim, induction_eliminator]
theorem treeInduction {motive : Condition → Prop} (leaf : ∀ l, motive (.leaf l))
    (group : ∀ logic children, (∀ c ∈ children, motive c) → motive (.group logic children)) :
    ∀ c, motive c
  | .leaf l => leaf l
  | .group logic children => group logic children fun c _ => treeInduction leaf group c

mutual

/-- The leaves of a condition, from left to right. -/
def leaves : Condition → List Leaf
  | .leaf l => [l]
  | .group _ children => leavesAll children

/-- The leaves of several conditions. -/
def leavesAll : List Condition → List Leaf
  | [] => []
  | child :: children => child.leaves ++ leavesAll children

end

@[simp] theorem leaves_leaf (l : Leaf) : (Condition.leaf l).leaves = [l] := by rw [leaves]

theorem leavesAll_eq_flatMap (cs : List Condition) : leavesAll cs = cs.flatMap leaves := by
  induction cs with
  | nil => rw [leavesAll, List.flatMap_nil]
  | cons c cs ih => rw [leavesAll, List.flatMap_cons, ih]

@[simp] theorem leaves_group (logic : Logic) (children : List Condition) :
    (Condition.group logic children).leaves = children.flatMap leaves := by
  rw [leaves, leavesAll_eq_flatMap]

/-- The leaves of a child are leaves of its group. -/
theorem mem_leaves_group {logic : Logic} {children : List Condition} {c : Condition} {l : Leaf}
    (hc : c ∈ children) (hl : l ∈ c.leaves) : l ∈ (Condition.group logic children).leaves := by
  rw [leaves_group]
  exact List.mem_flatMap.mpr ⟨c, hc, hl⟩

end Condition

/-! ## What a tree reads -/

/-- The bar furthest back that a leaf reads. A crossing also reads the bar before each of its two. -/
def Leaf.reach : Leaf → Nat
  | .threshold t => t.index
  | .cross c => max c.index.val c.targetIndex.val + 1
  | .price p => p.index
  | .position _ => 0

/-- No leaf looks further back than the deepest offset and, for a crossing, the bar before it. -/
theorem Leaf.reach_le (l : Leaf) : l.reach ≤ maxOffset + 1 := by
  cases l with
  | threshold t => exact Nat.le_of_lt t.index.isLt
  | cross c =>
      exact Nat.succ_le_succ (Nat.max_le.mpr
        ⟨Nat.le_of_lt_succ c.index.isLt, Nat.le_of_lt_succ c.targetIndex.isLt⟩)
  | price p => exact Nat.le_of_lt p.index.isLt
  | position p => exact Nat.zero_le _

theorem Leaf.reach_le_foldr {l : Leaf} {ls : List Leaf} (h : l ∈ ls) :
    l.reach ≤ (ls.map Leaf.reach).foldr max 0 := by
  induction h with
  | head ls => exact Nat.le_max_left ..
  | tail m _ ih => exact Nat.le_trans ih (Nat.le_max_right ..)

namespace Condition

/-- The bar furthest back that a condition reads: that of its leaf which looks back furthest. -/
def reach (c : Condition) : Nat := (c.leaves.map Leaf.reach).foldr max 0

theorem reach_leaf (l : Leaf) : (leaf l).reach = l.reach := by
  unfold reach
  rw [leaves_leaf]
  exact Nat.max_zero l.reach

theorem reach_le_of_mem_leaves {c : Condition} {l : Leaf} (h : l ∈ c.leaves) : l.reach ≤ c.reach :=
  Leaf.reach_le_foldr h

theorem reach_le (c : Condition) : c.reach ≤ maxOffset + 1 := by
  unfold reach
  induction c.leaves with
  | nil => exact Nat.zero_le _
  | cons l ls ih => exact Nat.max_le.mpr ⟨l.reach_le, ih⟩

/-- Some leaf tests a metric of the position. -/
def testsPosition (c : Condition) : Bool := c.leaves.any fun l => l.kind == .position

end Condition

end TradingRules
