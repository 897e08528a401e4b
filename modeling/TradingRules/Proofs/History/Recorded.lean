import TradingRules.Proofs.Engine.Recorded
import TradingRules.Proofs.History.Replay

/-!
# `Proofs.History.Recorded` — the logs of a replay are on record

A replay returns the logs of its ticks and puts none of them on record, which a tick by itself does. Nothing is
missed by that. The log of a step has the prices of the step's bar (`Replay.price_of_step`); the prices of a history's
bars were read beforehand, so they are numbers or missing; and a log with such prices is its own record.

## Contents
* `Replay.price_of_step`, `Replay.evaluateTick_of_step` — one step;
* `Replay.recorded_of_run`, `History.recorded_of_replay` — every log that is returned.
-/

namespace TradingRules

@[simp] theorem Snapshot.price_withMetrics (s : Snapshot) (metrics : Option (Metrics Float)) :
    (s.withMetrics metrics).price = s.price := by
  cases metrics <;> rfl

namespace Replay

variable {r next : Replay} {bar : Snapshot} {bars : List Snapshot} {log : TickLog} {logs : List TickLog}

theorem price_of_step (hstep : r.step bar = .ok (next, log)) : log.price = bar.price := by
  obtain ⟨metrics, -, hwindow, hlog, -, -⟩ := step_eq_ok.mp hstep
  have hcurrent : next.window.context.current = some (bar.withMetrics metrics) := by
    rw [hwindow, Window.current_push]
  rw [hlog, TickLog.price_ofResults hcurrent, Snapshot.price_withMetrics]

/-- If the prices of its bar are numbers, the log of a step is its own record. -/
theorem recorded_of_step (hprices : ∀ field, ∃ x, bar.price.given field = numberJson x)
    (hstep : r.step bar = .ok (next, log)) : log.recorded = .ok log := by
  rw [← price_of_step hstep] at hprices
  exact TickLog.recorded_of_numbers hprices

/-- **A step is a tick on record** then. -/
theorem evaluateTick_of_step (hprices : ∀ field, ∃ x, bar.price.given field = numberJson x)
    (hstep : r.step bar = .ok (next, log)) :
    r.engine.evaluateTick next.window.context (.str r.tracker.state.name) = (next.engine, .ok log) := by
  obtain ⟨metrics, -, -, hlog, hengine, -⟩ := step_eq_ok.mp hstep
  have htick : r.engine.tick next.window.context r.tracker.state = (next.engine, log) := by
    rw [hengine, hlog]
    rfl
  rw [Engine.evaluateTick_name, htick, recorded_of_step hprices hstep]

/-- Every log of a run over such bars is its own record. -/
theorem recorded_of_run (hprices : ∀ bar ∈ bars, ∀ field, ∃ x, bar.price.given field = numberJson x)
    (hrun : r.run bars = .ok logs) : ∀ log ∈ logs, log.recorded = .ok log := by
  induction bars generalizing r logs with
  | nil =>
      rw [run_nil_eq_ok.mp hrun]
      exact List.forall_mem_nil _
  | cons bar bars ih =>
      obtain ⟨next, log, rest, hstep, hrest, rfl⟩ := run_cons_eq_ok.mp hrun
      obtain ⟨hbar, hbars⟩ := List.forall_mem_cons.mp hprices
      exact List.forall_mem_cons.mpr ⟨recorded_of_step hbar hstep, ih hbars hrest⟩

end Replay

/-- **What a replay returns is on record**: no price of a history is one that is refused. -/
theorem History.recorded_of_replay {h : History} {rules : RuleSet} {capacity : Option Int}
    {settings : Except ConfigError Settings} {logs : List TickLog}
    (hreplay : h.replay rules capacity settings = .ok logs) : ∀ log ∈ logs, log.recorded = .ok log := by
  by_cases hbars : h.bars = []
  · cases (replay_of_bars_nil hbars).symm.trans hreplay
    exact List.forall_mem_nil _
  · obtain ⟨window, bars, -, hsnapshots, hrun⟩ := (replay_eq_ok hbars).mp hreplay
    refine Replay.recorded_of_run ?_ hrun
    intro bar hbar field
    obtain ⟨x, -, hx⟩ := given_of_mem_snapshots hsnapshots hbar field
    exact ⟨x, hx⟩

end TradingRules
