import TradingRules.Engine.Basic
import TradingRules.History.Series

/-!
# `History.Replay` — rules on the bars of a history

A replay drives an engine over historical bars and follows the position its rules would have opened and
closed: an entry is at the close of its bar. The metrics of the position at a bar are computed before the bar
enters the window, so that the rules that are evaluated on the bar can test them.

## Contents
* `Replay`, `Replay.step`, `Replay.run` — the replay, bar by bar;
* `History.replay` — the logs of a history.
-/

namespace TradingRules

/-- The state between two bars of a replay. -/
structure Replay where
  engine : Engine
  tracker : Tracker Float
  window : Window

/-- The state a tracked position is in. -/
def Tracker.state {α : Type} (t : Tracker α) : PositionState := if t.holding.isSome then .holding else .flat

/-- What a tick led to, done to a position at a price. -/
def Tracker.act {α : Type} (t : Tracker α) (action : Option Action) (price : Option α)
    (time : Option Timestamp) : Tracker α :=
  match action with
  | none => t
  | some .entry => t.enter price time
  | some .exit => t.leave

section State

variable {α : Type} (t : Tracker α) (price : Option α) (time : Option Timestamp)

@[simp] theorem Tracker.state_flat : (Tracker.flat : Tracker α).state = .flat := rfl

@[simp] theorem Tracker.state_enter : (t.enter price time).state = .holding := rfl

@[simp] theorem Tracker.state_leave : t.leave.state = .flat := rfl

/-- What a tick led to decides the state after it. -/
theorem Tracker.state_act (action : Option Action) :
    (t.act action price time).state = t.state.next action := by
  cases action with
  | none => rfl
  | some action => cases action <;> rfl

end State

/-- A bar with the metrics of the position, where there are any. -/
def Snapshot.withMetrics (s : Snapshot) : Option (Metrics Float) → Snapshot
  | none => s
  | some m => { s with position := .obj m.fields }

namespace Replay

/-- A replay that begins. -/
def start (rules : RuleSet) (window : Window) : Replay := { engine := .ofRules rules, tracker := .flat, window }

/-- The replay after a bar, and the log of the bar. The prices of the bar have been read, so the log can stand as it
is. -/
def step (r : Replay) (bar : Snapshot) : Except TrackError (Replay × TickLog) := do
  let (tracker, metrics) := r.tracker.observe bar.close bar.timestamp
  let window := r.window.push (bar.withMetrics (← metrics))
  let (engine, log) := r.engine.tick window.context tracker.state
  return ({ engine, tracker := tracker.act log.action bar.close bar.timestamp, window }, log)

/-- The logs of several bars. -/
def run (r : Replay) : List Snapshot → Except TrackError (List TickLog)
  | [] => .ok []
  | bar :: bars => do
    let (r, log) ← r.step bar
    return log :: (← r.run bars)

end Replay

/-- The logs of a history's bars, whose own position metrics are not used. Without bars nothing is looked
at. -/
def History.replay (h : History) (rules : RuleSet) (capacity : Option Int)
    (settings : Except ConfigError Settings) : Except HistoryError (List TickLog) :=
  if h.bars.isEmpty then .ok []
  else do
    let window ← openWindow capacity settings
    let bars ← { h with positions := none : History }.snapshots
    ((Replay.start rules window).run bars).mapError .track

end TradingRules
