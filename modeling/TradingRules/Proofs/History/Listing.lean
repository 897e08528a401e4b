import TradingRules.Proofs.History.Course

/-!
# `Proofs.History.Listing` — the order in which rules are listed

A strategy that gives its active rules distinct priorities says all there is to say about their order. How the
rules are listed then has no part in a replay, and inactive rules never have one: two replays that try the same
rules, from the same position and on the same window, stay alike bar by bar, whatever else their engines hold.

## Contents
* `RuleSet.SameActive` — two strategies list the same active rules, up to their order;
* `Replay.Alike` — two replays that cannot be told apart by their logs;
* `History.replay_eq_of_sameActive` — the replays of two such strategies.
-/

namespace TradingRules

open Fallible

/-- Two strategies list the same active rules on each side, up to their order. -/
def RuleSet.SameActive (a b : RuleSet) : Prop :=
  ∀ side, ((a.listed side).filter (·.active)).Perm ((b.listed side).filter (·.active))

/-- The active rules of each side have distinct priorities. -/
def RuleSet.DistinctPriorities (rules : RuleSet) : Prop :=
  ∀ side, (((rules.listed side).filter (·.active)).map (·.priority)).Nodup

theorem RuleSet.active_eq_of_sameActive {a b : RuleSet} (hsame : a.SameActive b) (hdistinct : a.DistinctPriorities)
    (side : Side) : a.active side = b.active side :=
  byPriority_eq_of_perm (hsame side) (hdistinct side)

namespace Replay

/-- Two replays try the same rules, from the same position and on the same window. -/
structure Alike (a b : Replay) : Prop where
  active : ∀ side, a.engine.active side = b.engine.active side
  tracker : a.tracker = b.tracker
  window : a.window = b.window

variable {a b : Replay}

/-- **Replays that are alike stay alike**: at a bar the tracker of both fails, or both make the same log and are
alike after it. -/
theorem Alike.step (h : Alike a b) (bar : Snapshot) :
    (∃ e, a.step bar = .error e ∧ b.step bar = .error e) ∨
      ∃ nextA nextB log, a.step bar = .ok (nextA, log) ∧ b.step bar = .ok (nextB, log) ∧ Alike nextA nextB := by
  cases hstep : a.step bar with
  | error e =>
      refine .inl ⟨e, rfl, ?_⟩
      rw [step_eq_error, ← h.tracker]
      exact step_eq_error.mp hstep
  | ok result =>
      obtain ⟨next, log⟩ := result
      obtain ⟨metrics, hmetrics, hwindow, hlog, hengine, htracker⟩ := step_eq_ok.mp hstep
      -- the other replay takes the same step; only what its engine holds may be different
      let other : Replay := { next with
        engine := { b.engine with outcomes := Engine.record b.engine.outcomes log.results } }
      refine .inr ⟨next, other, log, rfl, ?step, ?alike⟩
      case step =>
        rw [h.tracker] at hmetrics hlog htracker
        rw [h.window] at hwindow
        rw [h.active] at hlog
        exact step_eq_ok.mpr ⟨metrics, hmetrics, hwindow, hlog, rfl, htracker⟩
      case alike =>
        refine ⟨?_, rfl, rfl⟩
        intro side
        rw [hengine]
        cases side with
        | buy => exact h.active .buy
        | sell => exact h.active .sell

/-- Replays that are alike make the same logs, or fail alike. -/
theorem Alike.run_eq (h : Alike a b) (bars : List Snapshot) : a.run bars = b.run bars := by
  induction bars generalizing a b with
  | nil => rfl
  | cons bar bars ih =>
      rcases h.step bar with ⟨e, ha, hb⟩ | ⟨nextA, nextB, log, ha, hb, hnext⟩
      · rw [run_cons_eq_error.mpr (.inl ha), run_cons_eq_error.mpr (.inl hb)]
      · rw [run_cons_of_step ha, run_cons_of_step hb, ih hnext]

end Replay

namespace History

/-- **The listing of rules is irrelevant where priorities are distinct.** If two strategies list the same active
rules on each side, in whatever order and with whatever inactive rules, and no two active rules of a side have
one priority, then the replays of any history with them make the same logs, or fail with the same error. -/
theorem replay_eq_of_sameActive {a b : RuleSet} (hsame : a.SameActive b) (hdistinct : a.DistinctPriorities)
    (h : History) (capacity : Option Int) (settings : Except ConfigError Settings) :
    h.replay a capacity settings = h.replay b capacity settings := by
  have halike (window : Window) : (Replay.start a window).Alike (Replay.start b window) := by
    refine ⟨?_, rfl, rfl⟩
    intro side
    exact ((Engine.loaded_ofRules a).active side).trans
      ((RuleSet.active_eq_of_sameActive hsame hdistinct side).trans ((Engine.loaded_ofRules b).active side).symm)
  unfold replay
  simp only [(halike _).run_eq]

end History

/-- The rules of the trade with a second buying rule, and an inactive rule on each side. -/
def RuleSet.crowded : RuleSet where
  buying := [{ Rule.buyHigh with number := 3, priority := 1 }, { Rule.buyHigh with number := 4, active := false },
    .buyHigh]
  selling := [.sellGain, { Rule.sellGain with number := 5, active := false }]

/-- The same active rules, listed in their order. -/
def RuleSet.tidy : RuleSet where
  buying := [.buyHigh, { Rule.buyHigh with number := 3, priority := 1 }]
  selling := [.sellGain]

namespace History

/-- The trade is the same under rules that are listed in another order, among inactive ones. -/
theorem replay_eq_of_sameActive_trade :
    RuleSet.SameActive .crowded .tidy ∧ RuleSet.DistinctPriorities .crowded ∧
      trade.replay .crowded (some 6) (.ok {}) = trade.replay .tidy (some 6) (.ok {}) := by
  have hsame : RuleSet.SameActive .crowded .tidy := by
    intro side
    cases side <;> decide +kernel
  have hdistinct : RuleSet.DistinctPriorities .crowded := by
    intro side
    cases side <;> decide
  exact ⟨hsame, hdistinct, replay_eq_of_sameActive hsame hdistinct trade (some 6) (.ok {})⟩

end History

end TradingRules
