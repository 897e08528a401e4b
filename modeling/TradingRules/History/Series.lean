import TradingRules.Config.Settings
import TradingRules.Evaluation.Basic
import TradingRules.History.Basic
import TradingRules.Rule.Basic

/-!
# `History.Series` — a condition on every bar of a history

A condition is evaluated bar by bar on a rolling window, so that every bar sees what it would have seen when
it was the newest. Unlike a rule on a tick, a history fails as a whole where its data cannot be read.

## Contents
* `History.openWindow` — the window, whose capacity may come from the settings;
* `History.outcomes` — whether a condition passes, bar by bar;
* `LastTrue`, `History.lastTrue` — when a rule passed last.
-/

namespace TradingRules

namespace History

/-- The window of a capacity. Where none is given, or zero, it is that of the settings, which are only looked
at in this case. -/
def openWindow (capacity : Option Int) (settings : Except ConfigError Settings) :
    Except HistoryError Window := do
  let capacity ← match capacity with
    | none | some 0 => (settings.map (·.window)).mapError .config
    | some n => .ok n
  (Window.ofCapacity capacity).mapError .window

/-- Whether a condition passes on each of several bars, which enter the window one by one. -/
def outcomesOn (c : Condition) (window : Window) : List Snapshot → Except ReadError (List Bool)
  | [] => .ok []
  | bar :: bars => do
    let window := window.push bar
    let trace ← c.evaluate window.context
    return trace.passed :: (← outcomesOn c window bars)

/-- There is one outcome for every bar. -/
theorem length_outcomesOn {c : Condition} {window : Window} {bars : List Snapshot} {outcomes : List Bool}
    (h : outcomesOn c window bars = .ok outcomes) : outcomes.length = bars.length := by
  induction bars generalizing window outcomes with
  | nil =>
    cases h
    rfl
  | cons bar bars ih =>
    rw [outcomesOn] at h
    cases ht : c.evaluate (window.push bar).context with
    | error e => simp [ht, bind, Except.bind] at h
    | ok trace =>
      cases hr : outcomesOn c (window.push bar) bars with
      | error e => simp [ht, hr, bind, Except.bind] at h
      | ok rest =>
        simp only [ht, hr, bind, Except.bind, pure, Except.pure, Except.ok.injEq] at h
        subst h
        simp [ih hr]

/-- Whether a condition passes, bar by bar. Without bars nothing is looked at. -/
def outcomes (h : History) (c : Condition) (capacity : Option Int) (settings : Except ConfigError Settings) :
    Except HistoryError (List Bool) :=
  if h.bars.isEmpty then .ok []
  else do
    let window ← openWindow capacity settings
    let bars ← h.snapshots
    (outcomesOn c window bars).mapError .read

/-- Whether a rule passes, bar by bar, whatever its side and its state. -/
def ruleOutcomes (h : History) (r : Rule) (capacity : Option Int) (settings : Except ConfigError Settings) :
    Except HistoryError (List Bool) :=
  h.outcomes r.tree.toCondition capacity settings

end History

/-! ## The last bar on which a rule passed -/

/-- A bar on which a rule passed, and the number of bars after it. -/
structure LastPass where
  label : Label
  time : Option Timestamp
  barsAgo : Nat
deriving DecidableEq

/-- When a rule passed: on how many bars, and on which one last. -/
structure LastTrue where
  total : Nat
  last : Option LastPass
deriving DecidableEq

namespace LastTrue

/-- The last row on which a rule passed, from the newest row to the oldest, after `ago` newer ones. -/
def latest (ago : Nat) : List (Row × Bool) → Option LastPass
  | [] => none
  | (row, true) :: _ => some ⟨row.label, row.time, ago⟩
  | (_, false) :: older => latest (ago + 1) older

/-- When a rule passed, from its outcomes on the rows of bars. -/
def ofOutcomes (bars : Frame) (outcomes : List Bool) : LastTrue where
  total := outcomes.count true
  last := latest 0 (bars.zip outcomes).reverse

end LastTrue

/-- When a rule passed. -/
def History.lastTrue (h : History) (r : Rule) (settings : Except ConfigError Settings) :
    Except HistoryError LastTrue :=
  (h.ruleOutcomes r none settings).map (.ofOutcomes h.bars)

end TradingRules
