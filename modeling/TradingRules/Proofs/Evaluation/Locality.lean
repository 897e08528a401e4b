import TradingRules.Evaluation.Basic
import TradingRules.Proofs.Condition.Leaves
import TradingRules.Proofs.Fallible

/-!
# `Proofs.Evaluation.Locality` — evaluation depends only on what is read

A tree's trace, or its error, is made of what its leaves come to, and a leaf comes to the same on two runs of
bars that read alike where it looks. So does a tree: `Condition.evaluate_congr` asks the two runs to agree on
indicators and prices as far back as the tree reaches, and on the metrics of the position only if the tree
tests them.

## Contents
* `Condition.evaluateAll_eq_ok`, `Cross.evaluate_eq_ok` — what is evaluated, part by part;
* `Condition.evaluate_congr_of_leaves` — a tree is decided by its leaves;
* `Context.AgreeTo`, `Context.SameMetrics` — runs of bars that read alike;
* `Leaf.evaluate_congr`, `Condition.evaluate_congr` — evaluation on such runs.
-/

namespace TradingRules

open Fallible

namespace Condition

variable {ctx : Context}

theorem evaluateAll_cons_eq_ok {c : Condition} {cs : List Condition} {traces : List Trace} :
    evaluateAll ctx (c :: cs) = .ok traces ↔
      ∃ t ts, c.evaluate ctx = .ok t ∧ evaluateAll ctx cs = .ok ts ∧ traces = t :: ts := by
  rw [evaluateAll, bind_eq_ok]
  constructor
  · rintro ⟨t, ht, h⟩
    obtain ⟨ts, hts, h⟩ := bind_eq_ok.mp h
    exact ⟨t, ts, ht, hts, (pure_eq_ok.mp h).symm⟩
  · rintro ⟨t, ts, ht, hts, rfl⟩
    exact ⟨t, ht, bind_eq_ok.mpr ⟨ts, hts, rfl⟩⟩

/-- Several conditions are evaluated with the traces of each. -/
theorem evaluateAll_eq_ok {cs : List Condition} {traces : List Trace} :
    evaluateAll ctx cs = .ok traces ↔ List.Forall₂ (fun c t => c.evaluate ctx = .ok t) cs traces := by
  induction cs generalizing traces with
  | nil =>
      rw [evaluateAll, List.forall₂_nil_left_iff, Except.ok.injEq]
      exact eq_comm
  | cons c cs ih =>
      rw [evaluateAll_cons_eq_ok, List.forall₂_cons_left_iff]
      simp only [ih]

/-- A group is evaluated with the traces of its children. -/
theorem evaluate_group_eq_ok {logic : Logic} {children : List Condition} {trace : Trace} :
    (Condition.group logic children).evaluate ctx = .ok trace ↔
      ∃ traces, List.Forall₂ (fun c t => c.evaluate ctx = .ok t) children traces ∧
        trace = (GroupTrace.ofChildren logic traces).toTrace := by
  rw [evaluate, map_eq_ok]
  simp only [evaluateAll_eq_ok, eq_comm (b := trace)]

theorem evaluate_leaf_eq_ok {l : Leaf} {trace : Trace} :
    (Condition.leaf l).evaluate ctx = .ok trace ↔ ∃ t, l.evaluate ctx = .ok t ∧ trace = .leaf t := by
  rw [evaluate, map_eq_ok]
  simp only [eq_comm (b := trace)]

end Condition

/-- A crossing is evaluated where all four of its numbers can be read, and passes as these do. -/
theorem Cross.evaluate_eq_ok {c : Cross} {ctx : Context} {t : LeafTrace} :
    c.evaluate ctx = .ok t ↔ ∃ actual previous target previousTarget,
      ctx.indicator c.indicator c.field c.index.val = .ok actual ∧
      ctx.indicator c.indicator c.field (c.index.val + 1) = .ok previous ∧
      ctx.indicator c.target (c.targetField.getD "") c.targetIndex.val = .ok target ∧
      ctx.indicator c.target (c.targetField.getD "") (c.targetIndex.val + 1) = .ok previousTarget ∧
      t = .cross (c.crossing.test previous previousTarget actual target) c.indicator c.field c.crossing
        actual target previous previousTarget := by
  constructor
  · intro h
    obtain ⟨actual, hactual, h⟩ := bind_eq_ok.mp h
    obtain ⟨previous, hprevious, h⟩ := bind_eq_ok.mp h
    obtain ⟨target, htarget, h⟩ := bind_eq_ok.mp h
    obtain ⟨previousTarget, hpreviousTarget, h⟩ := bind_eq_ok.mp h
    exact ⟨actual, previous, target, previousTarget, hactual, hprevious, htarget, hpreviousTarget,
      (pure_eq_ok.mp h).symm⟩
  · rintro ⟨actual, previous, target, previousTarget, hactual, hprevious, htarget, hpreviousTarget, rfl⟩
    exact bind_eq_ok.mpr ⟨actual, hactual, bind_eq_ok.mpr ⟨previous, hprevious, bind_eq_ok.mpr ⟨target, htarget,
      bind_eq_ok.mpr ⟨previousTarget, hpreviousTarget, rfl⟩⟩⟩⟩

namespace Condition

variable {a b : Context}

theorem evaluateAll_congr {cs : List Condition} (h : ∀ c ∈ cs, c.evaluate a = c.evaluate b) :
    evaluateAll a cs = evaluateAll b cs := by
  induction cs with
  | nil => rw [evaluateAll, evaluateAll]
  | cons c cs ih =>
      rw [evaluateAll, evaluateAll, h c List.mem_cons_self, ih fun d hd => h d (List.mem_cons_of_mem c hd)]

/-- **A tree is decided by its leaves**, in trace and in error. -/
theorem evaluate_congr_of_leaves {c : Condition} (h : ∀ l ∈ c.leaves, l.evaluate a = l.evaluate b) :
    c.evaluate a = c.evaluate b := by
  induction c with
  | leaf l => rw [evaluate, evaluate, h l (by rw [leaves_leaf]; exact List.mem_singleton_self l)]
  | group logic children ih =>
      have hchildren : ∀ c ∈ children, c.evaluate a = c.evaluate b :=
        fun c hc => ih c hc fun l hl => h l (mem_leaves_group hc hl)
      rw [evaluate, evaluate, evaluateAll_congr hchildren]

end Condition

/-- A tree is evaluated as the condition at its root. -/
theorem Group.evaluate_toCondition_eq_ok {g : Group} {ctx : Context} {trace : Trace} :
    g.toCondition.evaluate ctx = .ok trace ↔ ∃ t, g.evaluate ctx = .ok t ∧ trace = t.toTrace := by
  rw [evaluate_toCondition, map_eq_ok]
  simp only [eq_comm (b := trace)]

theorem Group.toCondition_of_evaluate {g : Group} {ctx : Context} {t : GroupTrace} (h : g.evaluate ctx = .ok t) :
    g.toCondition.evaluate ctx = .ok t.toTrace := evaluate_toCondition_eq_ok.mpr ⟨t, h, rfl⟩

/-! ## Runs of bars that read alike -/

/-- Indicators and prices read alike at every offset up to `bound`. -/
structure Context.AgreeTo (bound : Nat) (a b : Context) : Prop where
  indicator : ∀ ref field, ∀ n ≤ bound, a.indicator ref field (n : Nat) = b.indicator ref field (n : Nat)
  price : ∀ field, ∀ n ≤ bound, a.price field (n : Nat) = b.price field (n : Nat)

/-- Every metric of the position reads alike. -/
def Context.SameMetrics (a b : Context) : Prop := ∀ name, a.metric name = b.metric name

variable {a b : Context}

theorem Threshold.evaluate_congr {t : Threshold} (h : a.AgreeTo t.index b) : t.evaluate a = t.evaluate b := by
  unfold Threshold.evaluate
  rw [h.indicator t.indicator t.field t.index (Nat.le_refl _)]

theorem Cross.evaluate_congr {c : Cross} (h : a.AgreeTo (max c.index.val c.targetIndex.val + 1) b) :
    c.evaluate a = c.evaluate b := by
  have hle : c.index.val ≤ max c.index.val c.targetIndex.val := Nat.le_max_left ..
  have hle' : c.targetIndex.val ≤ max c.index.val c.targetIndex.val := Nat.le_max_right ..
  have hactual := h.indicator c.indicator c.field c.index.val (Nat.le_succ_of_le hle)
  have htarget := h.indicator c.target (c.targetField.getD "") c.targetIndex.val (Nat.le_succ_of_le hle')
  -- the bar before each of the two is what makes a crossing reach one further
  have hprevious : a.indicator c.indicator c.field (c.index.val + 1)
      = b.indicator c.indicator c.field (c.index.val + 1) :=
    h.indicator c.indicator c.field (c.index.val + 1) (Nat.succ_le_succ hle)
  have hpreviousTarget : a.indicator c.target (c.targetField.getD "") (c.targetIndex.val + 1)
      = b.indicator c.target (c.targetField.getD "") (c.targetIndex.val + 1) :=
    h.indicator c.target (c.targetField.getD "") (c.targetIndex.val + 1) (Nat.succ_le_succ hle')
  simp only [Cross.evaluate, hactual, hprevious, htarget, hpreviousTarget]

theorem PriceTest.evaluate_congr {p : PriceTest} (h : a.AgreeTo p.index b) : p.evaluate a = p.evaluate b := by
  unfold PriceTest.evaluate
  rw [h.indicator p.indicator p.field p.index (Nat.le_refl _), h.price p.price p.index (Nat.le_refl _)]

theorem PositionTest.evaluate_congr {p : PositionTest} (h : a.SameMetrics b) : p.evaluate a = p.evaluate b := by
  unfold PositionTest.evaluate
  rw [h p.field]

namespace Context.AgreeTo

theorem mono {m n : Nat} (hle : m ≤ n) (h : a.AgreeTo n b) : a.AgreeTo m b where
  indicator := fun ref field k hk => h.indicator ref field k (Nat.le_trans hk hle)
  price := fun field k hk => h.price field k (Nat.le_trans hk hle)

end Context.AgreeTo

/-- A leaf comes to the same on two runs of bars that read alike where it looks. -/
theorem Leaf.evaluate_congr {l : Leaf} (hbars : a.AgreeTo l.reach b)
    (hmetrics : l.kind = .position → a.SameMetrics b) : l.evaluate a = l.evaluate b := by
  cases l with
  | threshold t => exact Threshold.evaluate_congr hbars
  | cross c => exact Cross.evaluate_congr hbars
  | price p => exact PriceTest.evaluate_congr hbars
  | position p => exact PositionTest.evaluate_congr (hmetrics rfl)

/-- **Evaluation is local**: a tree comes to the same trace, or the same error, on two runs of bars that read
alike as far back as it reaches and, if it tests the position, in the metrics. -/
theorem Condition.evaluate_congr {c : Condition} (hbars : a.AgreeTo c.reach b)
    (hmetrics : c.testsPosition = true → a.SameMetrics b) : c.evaluate a = c.evaluate b := by
  apply evaluate_congr_of_leaves
  intro l hl
  refine Leaf.evaluate_congr (hbars.mono (reach_le_of_mem_leaves hl)) ?_
  intro hkind
  exact hmetrics (List.any_eq_true.mpr ⟨l, hl, by rw [hkind]; rfl⟩)

end TradingRules
