import TradingRules.Condition.Check
import TradingRules.Proofs.Condition.Leaves

/-!
# `Proofs.Condition.Complete` — trees without defects

Completeness said without a walk: every group of a tree has children, every leaf has the parts that its kind
needs, and the tree is nested no deeper than the limit. The check walks down and counts levels from the root,
depth is computed from the leaves up, and an empty group has a depth of its own; a walk that starts at some
level finds nothing exactly if the tree is complete and its depth fits below that level
(`Condition.defects_eq_nil_iff`).

## Contents
* `Leaf.Complete` — a leaf has all its parts;
* `Condition.nodes` — a condition and all that is in it;
* `Condition.Complete`, `Group.Complete` — trees without defects;
* `Condition.deepest_le_iff` — the depth of several conditions;
* `Group.defects_eq_nil_iff` — what the check finds.
-/

namespace TradingRules

/-! ## Leaves -/

/-- A leaf has every part that its kind needs; a field without a name does not count. -/
def Leaf.Complete : Leaf → Prop
  | .threshold t => t.indicator ≠ none ∧ t.field ≠ ""
  | .cross c => c.indicator ≠ none ∧ c.field ≠ "" ∧ c.target ≠ none ∧ ∃ name, c.targetField = some name ∧ name ≠ ""
  | .price p => p.indicator ≠ none ∧ p.field ≠ ""
  | .position p => p.field ≠ ""

theorem Part.ifMissing_eq_nil_iff (part : Part) (missing : Bool) : part.ifMissing missing = [] ↔ missing = false := by
  cases missing with
  | false => exact iff_of_true rfl rfl
  | true => exact iff_of_false (List.cons_ne_nil _ _) Bool.noConfusion

/-- **A leaf is missing nothing exactly if it is complete.** -/
theorem Leaf.missing_eq_nil_iff (l : Leaf) : l.missing = [] ↔ l.Complete := by
  cases l with
  | threshold t =>
      simp only [missing, Complete, List.append_eq_nil_iff, Part.ifMissing_eq_nil_iff, Option.isNone_eq_false_iff,
        Option.isSome_iff_ne_none, String.isEmpty_eq_false_iff]
  | cross c =>
      have htarget : (c.targetField.getD "").isEmpty = false ↔ ∃ name, c.targetField = some name ∧ name ≠ "" := by
        cases c.targetField with
        | none => simp
        | some name => simp
      simp only [missing, Complete, List.append_eq_nil_iff, Part.ifMissing_eq_nil_iff, Option.isNone_eq_false_iff,
        Option.isSome_iff_ne_none, String.isEmpty_eq_false_iff, htarget, and_assoc]
  | price p =>
      simp only [missing, Complete, List.append_eq_nil_iff, Part.ifMissing_eq_nil_iff, Option.isNone_eq_false_iff,
        Option.isSome_iff_ne_none, String.isEmpty_eq_false_iff]
  | position p => simp only [missing, Complete, Part.ifMissing_eq_nil_iff, String.isEmpty_eq_false_iff]

theorem Leaf.defects_eq_nil_iff (l : Leaf) : l.defects = [] ↔ l.Complete := by
  unfold defects
  rw [List.map_eq_nil_iff, missing_eq_nil_iff]

namespace Condition

/-! ## Nodes -/

mutual

/-- A condition and all conditions in it, a group before its children. -/
def nodes : Condition → List Condition
  | .leaf l => [.leaf l]
  | .group logic children => .group logic children :: nodesAll children

/-- Several conditions and all conditions in them. -/
def nodesAll : List Condition → List Condition
  | [] => []
  | child :: children => child.nodes ++ nodesAll children

end

theorem nodesAll_eq_flatMap (cs : List Condition) : nodesAll cs = cs.flatMap nodes := by
  induction cs with
  | nil => rw [nodesAll, List.flatMap_nil]
  | cons c cs ih => rw [nodesAll, List.flatMap_cons, ih]

@[simp] theorem nodes_leaf (l : Leaf) : (Condition.leaf l).nodes = [.leaf l] := by rw [nodes]

@[simp] theorem nodes_group (logic : Logic) (children : List Condition) :
    (Condition.group logic children).nodes = .group logic children :: children.flatMap nodes := by
  rw [nodes, nodesAll_eq_flatMap]

/-! ## Complete conditions -/

/-- Every group has children and every leaf its parts. -/
structure Complete (c : Condition) : Prop where
  group_ne : ∀ logic, group logic [] ∉ c.nodes
  leaf_complete : ∀ l ∈ c.leaves, l.Complete

theorem complete_leaf_iff (l : Leaf) : (Condition.leaf l).Complete ↔ l.Complete := by
  constructor
  · intro h
    exact h.leaf_complete l (by simp)
  · intro h
    exact ⟨by simp, by simpa using h⟩

/-- A group is complete exactly if it has children and these are. -/
theorem complete_group_iff (logic : Logic) (children : List Condition) :
    (group logic children).Complete ↔ children ≠ [] ∧ ∀ c ∈ children, c.Complete := by
  constructor
  · rintro ⟨hgroups, hleaves⟩
    simp only [nodes_group, List.mem_cons, List.mem_flatMap, not_or, not_exists, not_and] at hgroups
    refine ⟨?_, fun c hc => ⟨fun l => (hgroups l).2 c hc, fun l hl => hleaves l (mem_leaves_group hc hl)⟩⟩
    rintro rfl
    exact (hgroups logic).1 rfl
  · rintro ⟨hne, hchildren⟩
    refine ⟨?_, ?_⟩
    · intro l hmem
      rw [nodes_group, List.mem_cons, List.mem_flatMap] at hmem
      rcases hmem with heq | ⟨c, hc, hmem⟩
      · cases heq
        exact hne rfl
      · exact (hchildren c hc).group_ne l hmem
    · intro l hl
      rw [leaves_group, List.mem_flatMap] at hl
      obtain ⟨c, hc, hl⟩ := hl
      exact (hchildren c hc).leaf_complete l hl

/-! ## Depth -/

theorem deepest_le_iff {cs : List Condition} {n : Nat} : deepest cs ≤ n ↔ ∀ c ∈ cs, c.depth ≤ n := by
  constructor
  · intro h c hc
    exact Nat.le_trans (depth_le_deepest hc) h
  · intro h
    induction cs with
    | nil => exact Nat.zero_le n
    | cons c cs ih =>
        obtain ⟨hc, hcs⟩ := List.forall_mem_cons.mp h
        rw [deepest]
        exact Nat.max_le.mpr ⟨hc, ih hcs⟩

/-- Levels counted on the way down against depth computed on the way up: a group fits at a level if the level is
within the limit and every group among its children fits at the next. A leaf fits anywhere. -/
theorem group_fits_iff {limit : Int} {level : Nat} {children : List Condition} :
    (level : Int) + deepest children ≤ limit ↔
      level ≤ limit ∧ ∀ c ∈ children, 0 < c.depth → ((level + 1 : Nat) : Int) + c.depth ≤ limit + 1 := by
  constructor
  · intro h
    refine ⟨by omega, ?_⟩
    intro c hc _
    have hdeep : c.depth ≤ deepest children := depth_le_deepest hc
    omega
  · rintro ⟨hlevel, hchildren⟩
    have hdeep : deepest children ≤ (limit - level).toNat := by
      rw [deepest_le_iff]
      intro c hc
      by_cases hleaf : c.depth = 0
      · omega
      · have hfits := hchildren c hc (Nat.pos_of_ne_zero hleaf)
        omega
    omega

/-! ## The check -/

theorem groupDefects_eq_nil_iff {limit : Int} {level : Nat} {children : List Condition} :
    groupDefects limit level children = [] ↔ children ≠ [] ∧ level ≤ limit := by
  unfold groupDefects
  rw [List.append_eq_nil_iff]
  cases children <;> simp

/-- **A walk that starts at a level finds nothing exactly if the condition is complete and fits there.** -/
theorem defects_eq_nil_iff (limit : Int) (c : Condition) (level : Nat) :
    c.defects limit level = [] ↔ c.Complete ∧ (0 < c.depth → (level : Int) + c.depth ≤ limit + 1) := by
  induction c generalizing level with
  | leaf l =>
      rw [defects, Leaf.defects_eq_nil_iff, complete_leaf_iff, depth]
      simp
  | group logic children ih =>
      have hchildren : defectsAll limit (level + 1) children = [] ↔
          ∀ c ∈ children, c.Complete ∧ (0 < c.depth → ((level + 1 : Nat) : Int) + c.depth ≤ limit + 1) := by
        rw [defectsAll_eq_flatMap, List.flatMap_eq_nil_iff]
        exact forall₂_congr fun c hc => ih c hc (level + 1)
      have hfits : (0 < (group logic children).depth →
            (level : Int) + (group logic children).depth ≤ limit + 1) ↔
          (level : Int) + deepest children ≤ limit := by
        rw [depth]
        omega
      rw [defects, List.append_eq_nil_iff, groupDefects_eq_nil_iff, hchildren, complete_group_iff, hfits,
        group_fits_iff]
      constructor
      · rintro ⟨⟨hne, hlevel⟩, hall⟩
        exact ⟨⟨hne, fun c hc => (hall c hc).1⟩, hlevel, fun c hc => (hall c hc).2⟩
      · rintro ⟨⟨hne, hcomplete⟩, hlevel, hdepth⟩
        exact ⟨⟨hne, hlevel⟩, fun c hc => ⟨hcomplete c hc, hdepth c hc⟩⟩

end Condition

/-- A tree is nested no deeper than the limit, no group of it is empty, and no leaf is missing a part. -/
structure Group.Complete (g : Group) (limit : Int) : Prop where
  depth_le : (g.depth : Int) ≤ limit
  group_ne : ∀ logic, Condition.group logic [] ∉ g.toCondition.nodes
  leaf_complete : ∀ l ∈ g.toCondition.leaves, l.Complete

/-- **The check of a tree finds nothing exactly if the tree is complete.** -/
theorem Group.defects_eq_nil_iff (limit : Int) (g : Group) : g.defects limit = [] ↔ g.Complete limit := by
  have hdepth : g.toCondition.depth = 1 + Condition.deepest g.children := by
    rw [toCondition, Condition.depth]
  unfold defects
  rw [Condition.defects_eq_nil_iff]
  constructor
  · rintro ⟨⟨hgroups, hleaves⟩, hfits⟩
    refine ⟨?_, hgroups, hleaves⟩
    have hle := hfits (by omega)
    show (g.toCondition.depth : Int) ≤ limit
    omega
  · rintro ⟨hle, hgroups, hleaves⟩
    refine ⟨⟨hgroups, hleaves⟩, ?_⟩
    intro _
    have hle : (g.toCondition.depth : Int) ≤ limit := hle
    omega

end TradingRules
