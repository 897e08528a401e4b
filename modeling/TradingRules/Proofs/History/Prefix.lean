import TradingRules.Proofs.History.Replay

/-!
# `Proofs.History.Prefix` — a replay does not look ahead

The first rows of a history are replayed to the first logs of the whole: no log depends on a later bar. A run
that is cut short has done the same up to there (`Replay.run_take`), with engine, tracker and window all going
from bar to bar, and the rows of a prefix are the first rows.
-/

namespace TradingRules

open Fallible

/-- **A run over the first bars has the first logs**, whatever state it goes out from. -/
theorem Replay.run_take {r : Replay} {bars : List Snapshot} {logs : List TickLog} (h : r.run bars = .ok logs)
    (k : Nat) : r.run (bars.take k) = .ok (logs.take k) := by
  induction bars generalizing r logs k with
  | nil =>
      rw [run_nil_eq_ok.mp h, List.take_nil, List.take_nil]
      exact run_nil_eq_ok.mpr rfl
  | cons bar bars ih =>
      cases k with
      | zero => exact run_nil_eq_ok.mpr rfl
      | succ k =>
          -- the step on the first bar is the same, so both runs go on from one state
          obtain ⟨next, log, rest, hstep, hrest, rfl⟩ := run_cons_eq_ok.mp h
          exact run_cons_eq_ok.mpr ⟨next, log, rest.take k, hstep, ih hrest k, rfl⟩

namespace History

variable {h : History} {rules : RuleSet} {capacity : Option Int} {settings : Except ConfigError Settings}
  {logs : List TickLog}

/-- **A replay does not look ahead.** The first `k` rows of bars and indicators are replayed, with the same
rules and window, to exactly the first `k` logs of the whole. -/
theorem replay_take (hreplay : h.replay rules capacity settings = .ok logs) (k : Nat) :
    (h.take k).replay rules capacity settings = .ok (logs.take k) := by
  by_cases hprefix : (h.take k).bars = []
  · -- no rows are left: either none were asked for or there were none
    rw [replay_of_bars_nil hprefix]
    rcases List.take_eq_nil_iff.mp hprefix with rfl | hbars
    · rfl
    · rw [replay_of_bars_nil hbars] at hreplay
      cases hreplay
      rw [List.take_nil]
  · have hbars : h.bars ≠ [] := fun hnil => hprefix (by rw [take, hnil, List.take_nil])
    obtain ⟨window, bars, hwindow, hsnapshots, hrun⟩ := (replay_eq_ok hbars).mp hreplay
    exact (replay_eq_ok hprefix).mpr
      ⟨window, bars.take k, hwindow, snapshots_take hsnapshots, Replay.run_take hrun k⟩

/-- The first two bars of the trade, which enters on the first and leaves on the second. -/
theorem replay_take_trade :
    ∃ logs, trade.replay .trade (some 6) (.ok {}) = .ok logs ∧
      logs.map (·.action) = [some .entry, some .exit, none] ∧
      (trade.take 2).replay .trade (some 6) (.ok {}) = .ok (logs.take 2) := by
  obtain ⟨logs, hlogs, hactions⟩ := exists_ok_of_any
    (x := trade.replay .trade (some 6) (.ok {}))
    (p := fun logs => logs.map (·.action) == [some .entry, some .exit, none]) (by decide +kernel)
  exact ⟨logs, hlogs, beq_iff_eq.mp hactions, replay_take hlogs 2⟩

end History

end TradingRules
