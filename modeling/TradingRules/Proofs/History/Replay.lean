import TradingRules.History.Replay
import TradingRules.Proofs.Engine.Loaded
import TradingRules.Proofs.History.Rows
import TradingRules.Proofs.Market.Rolling

/-!
# `Proofs.History.Replay` — a replay that succeeded, taken apart

What a replay that returned its logs did, bar by bar. `Replay.step_eq_ok` says all that one step does; from it
follows what stands in every log of a run (`Replay.results_of_run`): the results of the rules that were active
in the state of the bar, on the window of all bars up to it, each with the metrics that the tracker supplied.

## Contents
* `Replay.step_eq_ok`, `Replay.run_cons_eq_ok` — a step, and a run;
* `Replay.supplied`, `Replay.exists_supplied` — the metrics that the tracker supplies on the way;
* `Replay.results_of_run` — what a log records;
* `History.replay_eq_ok` — the replay of a history;
* `History.trade` — a small one, that enters and leaves.
-/

namespace TradingRules

open Fallible

/-- Computing metrics neither opens nor closes a position. -/
theorem Tracker.state_observe (t : Tracker Float) (close : Option Float) (time : Option Timestamp) :
    (t.observe close time).1.state = t.state := by
  unfold Tracker.observe
  split
  case h_2 => rfl
  case h_1 since prices close hholding =>
    split
    · rfl
    · unfold Tracker.state
      rw [hholding]
      rfl

namespace Replay

variable {r : Replay} {bar : Snapshot} {bars : List Snapshot} {logs : List TickLog}

/-- **What a step does.** The tracker looks at the bar, the bar enters the window with the metrics of the
position, the engine evaluates the rules of the tracker's state on the window, and the tracker follows what
that led to. -/
theorem step_eq_ok {next : Replay} {log : TickLog} :
    r.step bar = .ok (next, log) ↔
      ∃ metrics, (r.tracker.observe bar.close bar.timestamp).2 = .ok metrics ∧
        next.window = r.window.push (bar.withMetrics metrics) ∧
        log = .ofResults next.window.context r.tracker.state
          (evaluateRules (r.engine.active r.tracker.state.side) next.window.context) ∧
        next.engine = { r.engine with outcomes := Engine.record r.engine.outcomes log.results } ∧
        next.tracker = (r.tracker.observe bar.close bar.timestamp).1.act log.action
          bar.close bar.timestamp := by
  rw [← Tracker.state_observe r.tracker bar.close bar.timestamp]
  constructor
  · intro hstep
    obtain ⟨metrics, hmetrics, hstep⟩ := bind_eq_ok.mp hstep
    cases pure_eq_ok.mp hstep
    exact ⟨metrics, hmetrics, rfl, rfl, rfl, rfl⟩
  · rintro ⟨metrics, hmetrics, hwindow, hlog, hengine, htracker⟩
    obtain ⟨engine, tracker, window⟩ := next
    dsimp only at hwindow hlog hengine htracker
    subst hwindow hlog hengine htracker
    exact bind_eq_ok.mpr ⟨metrics, hmetrics, rfl⟩

theorem run_nil_eq_ok : r.run [] = .ok logs ↔ logs = [] := by
  rw [run, Except.ok.injEq]
  exact eq_comm

/-- A run over bars is a step on the first one and a run over the others. -/
theorem run_cons_eq_ok :
    r.run (bar :: bars) = .ok logs ↔
      ∃ next log rest, r.step bar = .ok (next, log) ∧ next.run bars = .ok rest ∧ logs = log :: rest := by
  rw [run, bind_eq_ok]
  constructor
  · rintro ⟨⟨next, log⟩, hstep, h⟩
    obtain ⟨rest, hrest, h⟩ := bind_eq_ok.mp h
    exact ⟨next, log, rest, hstep, hrest, (pure_eq_ok.mp h).symm⟩
  · rintro ⟨next, log, rest, hstep, hrest, rfl⟩
    exact ⟨(next, log), hstep, bind_eq_ok.mpr ⟨rest, hrest, rfl⟩⟩

/-- There is one log for every bar. -/
theorem length_run (h : r.run bars = .ok logs) : logs.length = bars.length := by
  induction bars generalizing r logs with
  | nil =>
      rw [run_nil_eq_ok.mp h]
      rfl
  | cons bar bars ih =>
      obtain ⟨next, log, rest, -, hrest, rfl⟩ := run_cons_eq_ok.mp h
      rw [List.length_cons, List.length_cons, ih hrest]

/-! ## The metrics supplied on the way -/

/-- The metrics of the position that the tracker supplies at each of several bars. -/
def supplied (r : Replay) : List Snapshot → Except TrackError (List (Option (Metrics Float)))
  | [] => .ok []
  | bar :: bars => do
    let metrics ← (r.tracker.observe bar.close bar.timestamp).2
    let (next, _) ← r.step bar
    return metrics :: (← next.supplied bars)

theorem supplied_cons {metrics : Option (Metrics Float)} {next : Replay} {log : TickLog}
    {rest : List (Option (Metrics Float))}
    (hmetrics : (r.tracker.observe bar.close bar.timestamp).2 = .ok metrics)
    (hstep : r.step bar = .ok (next, log)) (hrest : next.supplied bars = .ok rest) :
    r.supplied (bar :: bars) = .ok (metrics :: rest) := by
  rw [supplied, hmetrics, hstep]
  show (next.supplied bars).bind _ = _
  rw [hrest]
  rfl

/-- A run that returned its logs was supplied with metrics, or with none, at every bar. -/
theorem exists_supplied (h : r.run bars = .ok logs) :
    ∃ supplied, r.supplied bars = .ok supplied ∧ supplied.length = bars.length := by
  induction bars generalizing r logs with
  | nil => exact ⟨[], rfl, rfl⟩
  | cons bar bars ih =>
      obtain ⟨next, log, rest, hstep, hrest, rfl⟩ := run_cons_eq_ok.mp h
      obtain ⟨metrics, hmetrics, -⟩ := step_eq_ok.mp hstep
      obtain ⟨supplied, hsupplied, hlength⟩ := ih hrest
      exact ⟨metrics :: supplied, supplied_cons hmetrics hstep hsupplied,
        by rw [List.length_cons, hlength, List.length_cons]⟩

variable {rules : RuleSet}

/-- The rules never change on the way, nor do the lists that are made from them. -/
theorem loaded_of_step {next : Replay} {log : TickLog} (hloaded : r.engine.Loaded rules)
    (hstep : r.step bar = .ok (next, log)) : next.engine.Loaded rules := by
  obtain ⟨metrics, -, -, -, hengine, -⟩ := step_eq_ok.mp hstep
  rw [hengine]
  exact hloaded.withOutcomes _

/-- A step makes the log that the rules call for. -/
theorem log_of_step {next : Replay} {log : TickLog} (hloaded : r.engine.Loaded rules)
    (hstep : r.step bar = .ok (next, log)) :
    log = .ofResults next.window.context r.tracker.state
      ((rules.active r.tracker.state.side).map (·.evaluate next.window.context)) := by
  obtain ⟨metrics, -, -, hlog, -, -⟩ := step_eq_ok.mp hstep
  rw [hlog, hloaded.evaluateRules_eq]

/-- **What a log records**: the results of the active rules of its side, on the window of all bars up to its
own, each with the metrics that were supplied at it. -/
theorem results_of_run {supplied : List (Option (Metrics Float))} (hloaded : r.engine.Loaded rules)
    (hrun : r.run bars = .ok logs) (hsupplied : r.supplied bars = .ok supplied) {i : Nat} {log : TickLog}
    (hlog : logs[i]? = some log) :
    log.results = (rules.active log.side).map (·.evaluate
      (r.window.pushAll ((List.zipWith Snapshot.withMetrics bars supplied).take (i + 1))).context) := by
  induction bars generalizing r logs supplied i with
  | nil =>
      rw [run_nil_eq_ok.mp hrun] at hlog
      cases hlog
  | cons bar bars ih =>
      obtain ⟨next, first, rest, hstep, hrest, rfl⟩ := run_cons_eq_ok.mp hrun
      obtain ⟨metrics, hmetrics, hwindow, -, -, -⟩ := step_eq_ok.mp hstep
      obtain ⟨supplied', hsupplied', -⟩ := exists_supplied hrest
      cases hsupplied.symm.trans (supplied_cons hmetrics hstep hsupplied')
      -- the first bar has entered the window; what is left is the run of the state after it
      rw [List.zipWith_cons_cons, List.take_succ_cons, Window.pushAll_cons, ← hwindow]
      cases i with
      | zero =>
          cases hlog
          rw [List.take_zero, Window.pushAll_nil, log_of_step hloaded hstep]
          rfl
      | succ i => exact ih (loaded_of_step hloaded hstep) hrest hsupplied' hlog

end Replay

namespace History

variable {h : History} {rules : RuleSet} {capacity : Option Int} {settings : Except ConfigError Settings}
  {logs : List TickLog}

/-- A history's replay is the run of a replay that begins, in the window that was asked for, over its bars
without a frame of positions. -/
theorem replay_eq_ok (hbars : h.bars ≠ []) :
    h.replay rules capacity settings = .ok logs ↔
      ∃ window bars, openWindow capacity settings = .ok window ∧
        (h.withPositions none).snapshots = .ok bars ∧
        (Replay.start rules window).run bars = .ok logs := by
  unfold replay
  rw [if_neg (by simpa using hbars), bind_eq_ok]
  constructor
  · rintro ⟨window, hwindow, h⟩
    obtain ⟨bars, hsnapshots, h⟩ := bind_eq_ok.mp h
    exact ⟨window, bars, hwindow, hsnapshots, mapError_eq_ok.mp h⟩
  · rintro ⟨window, bars, hwindow, hsnapshots, hrun⟩
    exact ⟨window, hwindow, bind_eq_ok.mpr ⟨bars, hsnapshots, mapError_eq_ok.mpr hrun⟩⟩

theorem replay_of_bars_nil (hbars : h.bars = []) : h.replay rules capacity settings = .ok [] := by
  unfold replay
  rw [hbars]
  rfl

end History

/-! ## A trade -/

/-- Three bars: the indicator is high on the first one, and the close has risen by a fifth on the second. -/
def History.trade : History where
  bars := [10.0, 12.0, 11.0].map fun close => ⟨.value .null, [("close", .float close)]⟩
  indicators := [(1, some ([75.0, 71.0, 60.0].map fun value => ⟨.value .null, [("value", .float value)]⟩))]

/-- Buys while the indicator is high. -/
def Rule.buyHigh : Rule where
  number := 1
  side := .buy
  tree := { children := [.leaf (.threshold { indicator := some 1, field := "value", operand := .scalar 70.0 })] }

/-- Sells at a gain. -/
def Rule.sellGain : Rule where
  number := 2
  side := .sell
  tree := { children := [.leaf (.position
    { field := Metric.change.name, comparison := .gt, operand := .scalar 5.0 })] }

/-- The rules of the trade. -/
def RuleSet.trade : RuleSet := { buying := [.buyHigh], selling := [.sellGain] }

end TradingRules
