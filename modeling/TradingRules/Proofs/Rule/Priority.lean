import Mathlib.Data.List.Nodup
import TradingRules.Engine.Result
import TradingRules.Proofs.Evaluation.Locality

/-!
# `Proofs.Rule.Priority` — rules in the order in which they are tried

Rules are put in order when they are loaded and once more when they are evaluated. The second time changes
nothing: the results of a side stand in the order of its active rules. Where no two rules have one priority,
the order does not depend on how the rules are listed.
-/

namespace TradingRules

theorem pairwise_byPriority (rules : List Rule) :
    (byPriority rules).Pairwise fun a b => decide (a.priority ≤ b.priority) = true := by
  apply List.pairwise_mergeSort
  · intro a b c hab hbc
    exact decide_eq_true (Nat.le_trans (of_decide_eq_true hab) (of_decide_eq_true hbc))
  · intro a b
    rcases Nat.le_total a.priority b.priority with h | h
    · rw [decide_eq_true h, Bool.true_or]
    · rw [decide_eq_true h, Bool.or_true]

theorem byPriority_byPriority (rules : List Rule) : byPriority (byPriority rules) = byPriority rules :=
  List.mergeSort_of_pairwise (pairwise_byPriority rules)

/-- Rules of distinct priorities have one order, however they are listed. -/
theorem byPriority_eq_of_perm {a b : List Rule} (hperm : a.Perm b) (hdistinct : (a.map (·.priority)).Nodup) :
    byPriority a = byPriority b := by
  have ha : (byPriority a).Perm a := List.mergeSort_perm _ _
  have hb : (byPriority b).Perm b := List.mergeSort_perm _ _
  refine List.Perm.eq_of_pairwise ?_ (pairwise_byPriority a) (pairwise_byPriority b)
    ((ha.trans hperm).trans hb.symm)
  intro x y hx hy hxy hyx
  have hpriority : x.priority = y.priority := Nat.le_antisymm (of_decide_eq_true hxy) (of_decide_eq_true hyx)
  exact List.inj_on_of_nodup_map hdistinct (ha.mem_iff.mp hx) (hperm.mem_iff.mpr (hb.mem_iff.mp hy)) hpriority

/-- The rules that are tried are the active ones that are listed. -/
theorem RuleSet.mem_active {rules : RuleSet} {side : Side} {r : Rule} :
    r ∈ rules.active side ↔ r ∈ rules.listed side ∧ r.active = true := by
  unfold RuleSet.active byPriority
  rw [(List.mergeSort_perm _ _).mem_iff, List.mem_filter]

/-- The active rules of a side are in order already, so their results stand in the same order. -/
theorem evaluateRules_active (rules : RuleSet) (side : Side) (ctx : Context) :
    evaluateRules (rules.active side) ctx = (rules.active side).map (·.evaluate ctx) := by
  unfold evaluateRules RuleSet.active
  rw [byPriority_byPriority]

/-! ## The outcome of a rule -/

theorem Group.traceOn_of_ok {g : Group} {ctx : Context} {trace : GroupTrace} (h : g.evaluate ctx = .ok trace) :
    g.traceOn ctx = trace := by
  unfold traceOn
  rw [h]

theorem Group.traceOn_of_error {g : Group} {ctx : Context} {e : ReadError} (h : g.evaluate ctx = .error e) :
    g.traceOn ctx = .failed g := by
  unfold traceOn
  rw [h]

/-- Where a rule's tree can be evaluated, the rule passes if the tree does. -/
theorem Rule.passed_evaluate {r : Rule} {ctx : Context} {trace : Trace}
    (h : r.tree.toCondition.evaluate ctx = .ok trace) : (r.evaluate ctx).passed = trace.passed := by
  obtain ⟨g, hgroup, rfl⟩ := Group.evaluate_toCondition_eq_ok.mp h
  show (r.tree.traceOn ctx).passed = g.passed
  rw [Group.traceOn_of_ok hgroup]

end TradingRules
