import TradingRules.History.Series
import TradingRules.Proofs.Fallible
import TradingRules.Proofs.Market.Rolling

/-!
# `Proofs.History.Series` — the outcomes of a history, taken apart

A history that was evaluated has, at every bar, the outcome that the condition comes to on the window of all
bars up to it (`History.evaluate_of_outcomesOn`): nothing was swallowed on the way.
-/

namespace TradingRules

open Fallible

namespace History

variable {c : Condition} {w : Window} {bar : Snapshot} {bars : List Snapshot} {outcomes : List Bool}

theorem outcomesOn_cons_eq_ok :
    outcomesOn c w (bar :: bars) = .ok outcomes ↔
      ∃ trace rest, c.evaluate (w.push bar).context = .ok trace ∧
        outcomesOn c (w.push bar) bars = .ok rest ∧ outcomes = trace.passed :: rest := by
  rw [outcomesOn]
  constructor
  · intro h
    obtain ⟨trace, htrace, h⟩ := bind_eq_ok.mp h
    obtain ⟨rest, hrest, h⟩ := bind_eq_ok.mp h
    exact ⟨trace, rest, htrace, hrest, (pure_eq_ok.mp h).symm⟩
  · rintro ⟨trace, rest, htrace, hrest, rfl⟩
    exact bind_eq_ok.mpr ⟨trace, htrace, bind_eq_ok.mpr ⟨rest, hrest, rfl⟩⟩

/-- **Every outcome is that of an evaluation** on the window of all bars up to its own. -/
theorem evaluate_of_outcomesOn (h : outcomesOn c w bars = .ok outcomes) {i : Nat} (hi : i < bars.length) :
    ∃ trace, c.evaluate (w.pushAll (bars.take (i + 1))).context = .ok trace ∧
      outcomes[i]? = some trace.passed := by
  induction bars generalizing w outcomes i with
  | nil => exact absurd hi (Nat.not_lt_zero i)
  | cons bar bars ih =>
      obtain ⟨trace, rest, htrace, hrest, rfl⟩ := outcomesOn_cons_eq_ok.mp h
      rw [List.take_succ_cons, Window.pushAll_cons]
      cases i with
      | zero => exact ⟨trace, htrace, rfl⟩
      | succ i => exact ih hrest (Nat.lt_of_succ_lt_succ hi)

/-- Evaluations on the window of all bars up to each one make the outcomes. -/
theorem outcomesOn_of_evaluate {f : Nat → Bool}
    (h : ∀ i < bars.length,
      ∃ trace, c.evaluate (w.pushAll (bars.take (i + 1))).context = .ok trace ∧ trace.passed = f i) :
    outcomesOn c w bars = .ok ((List.range bars.length).map f) := by
  induction bars generalizing w f with
  | nil => rfl
  | cons bar bars ih =>
      obtain ⟨trace, htrace, hpassed⟩ := h 0 (Nat.zero_lt_succ _)
      have hrest : outcomesOn c (w.push bar) bars = .ok ((List.range bars.length).map fun i => f (i + 1)) :=
        ih fun i hi => h (i + 1) (Nat.succ_lt_succ hi)
      refine outcomesOn_cons_eq_ok.mpr ⟨trace, _, htrace, hrest, ?_⟩
      rw [List.length_cons, List.range_succ_eq_map, List.map_cons, List.map_map, hpassed]
      rfl

/-- A window that is opened for a history is empty. -/
theorem recent_of_openWindow {capacity : Option Int} {settings : Except ConfigError Settings} {window : Window}
    (hwindow : openWindow capacity settings = .ok window) :
    window.recent = [] := by
  obtain ⟨size, hsize⟩ : ∃ size, (Window.ofCapacity size).mapError HistoryError.window = .ok window := by
    unfold openWindow at hwindow
    dsimp only at hwindow
    split at hwindow
    · obtain ⟨size, -, hsize⟩ := bind_eq_ok.mp hwindow
      exact ⟨size, hsize⟩
    · obtain ⟨size, -, hsize⟩ := bind_eq_ok.mp hwindow
      exact ⟨size, hsize⟩
    · exact ⟨_, hwindow⟩
  exact (Window.ofCapacity_eq_ok.mp (mapError_eq_ok.mp hsize)).2.2.1

/-- The outcomes of a history are those on its bars, in the window that was asked for. -/
theorem outcomes_eq_ok {h : History} {capacity : Option Int} {settings : Except ConfigError Settings}
    (hbars : h.bars ≠ []) :
    h.outcomes c capacity settings = .ok outcomes ↔
      ∃ window bars, openWindow capacity settings = .ok window ∧ h.snapshots = .ok bars ∧
        outcomesOn c window bars = .ok outcomes := by
  unfold History.outcomes
  rw [if_neg (by simpa using hbars), bind_eq_ok]
  constructor
  · rintro ⟨window, hwindow, h⟩
    obtain ⟨bars, hsnapshots, h⟩ := bind_eq_ok.mp h
    exact ⟨window, bars, hwindow, hsnapshots, mapError_eq_ok.mp h⟩
  · rintro ⟨window, bars, hwindow, hsnapshots, hon⟩
    exact ⟨window, hwindow, bind_eq_ok.mpr ⟨bars, hsnapshots, mapError_eq_ok.mpr hon⟩⟩

end History

end TradingRules
