import TradingRules.Proofs.History.Replay

/-!
# `Proofs.History.Alternation` — a replay enters and leaves in turn

Every log of a replay is made in the state that the actions before it lead to, from the rules of that state's
side, and acts on it if a rule passed. So entries and exits take turns, beginning with an entry, and the one
more entry than exits there may be is the position that is open: `History.replay_alternates`.

## Contents
* `PositionState.after`, `PositionState.Permits` — runs of actions, and what they amount to;
* `isSome_triggered`, `TickLog.action_ofResults` — when a tick acts;
* `TickLog.Follows` — a log and the rules it was made from;
* `Replay.permits_of_run`, `Replay.state_of_run` — actions and states of a run;
* `History.replay_alternates` — the law of a replay.
-/

namespace TradingRules

open Fallible

/-! ## Runs of actions -/

namespace PositionState

variable {state : PositionState} {action : Action} {actions : List (Option Action)}

/-- The state after several ticks, from what each of them leads to. -/
def after (state : PositionState) (actions : List (Option Action)) : PositionState := actions.foldl next state

@[simp] theorem after_nil (state : PositionState) : state.after [] = state := rfl

@[simp] theorem after_cons (state : PositionState) (action : Option Action) (actions : List (Option Action)) :
    state.after (action :: actions) = (state.next action).after actions := rfl

/-- Every tick that acts does what its state asks for: to enter while nothing is held, to leave otherwise. -/
def Permits : PositionState → List (Option Action) → Prop
  | _, [] => True
  | state, action :: actions =>
    (∀ a, action = some a → a = state.action) ∧ (state.next action).Permits actions

theorem Permits.take (h : state.Permits actions) (k : Nat) : state.Permits (actions.take k) := by
  induction actions generalizing state k with
  | nil =>
      rw [List.take_nil]
      exact h
  | cons action actions ih =>
      cases k with
      | zero => trivial
      | succ k => exact ⟨h.1, ih h.2 k⟩

/-- What is asked for after an action is to undo it. -/
theorem next_action_next_action (state : PositionState) :
    (state.next (some state.action)).next (some (state.next (some state.action)).action) = state := by
  cases state <;> rfl

/-- **Actions take turns**, beginning with the one that the state asks for. -/
theorem Permits.getElem?_filterMap (h : state.Permits actions) {n : Nat}
    (haction : (actions.filterMap id)[n]? = some action) :
    action = if n % 2 = 0 then state.action else (state.next (some state.action)).action := by
  induction actions generalizing state n with
  | nil => simp at haction
  | cons first actions ih =>
      obtain ⟨hfirst, hrest⟩ := h
      cases first with
      | none => exact ih hrest haction
      | some a =>
          have ha : a = state.action := hfirst a rfl
          subst ha
          rw [List.filterMap_cons_some (by rfl)] at haction
          cases n with
          | zero =>
              cases haction
              rfl
          | succ n =>
              rw [ih hrest haction, next_action_next_action]
              -- the turn is the other one after the first action
              rcases Nat.mod_two_eq_zero_or_one n with hn | hn
              · rw [if_pos hn, if_neg (by omega)]
              · rw [if_neg (by omega), if_pos (by omega)]

/-- **Entries and exits balance** up to the position that was open and the one that is. -/
theorem Permits.count_entry (h : state.Permits actions) :
    actions.count (some .entry) + (if state = .holding then 1 else 0)
      = actions.count (some .exit) + (if state.after actions = .holding then 1 else 0) := by
  induction actions generalizing state with
  | nil => rfl
  | cons action actions ih =>
      obtain ⟨haction, hrest⟩ := h
      have hcount := ih hrest
      rw [after_cons, List.count_cons, List.count_cons]
      cases action with
      | none => exact hcount
      | some a =>
          rw [haction a rfl] at hcount ⊢
          cases state <;> simp [PositionState.action, next] at hcount ⊢ <;> omega

end PositionState

/-! ## When a tick acts -/

theorem isSome_leastBy {α : Type} (key : α → Int) (entries : List α) :
    (leastBy key entries).isSome = !entries.isEmpty := by
  cases entries with
  | nil => rfl
  | cons a rest =>
      rw [leastBy]
      cases leastBy key rest <;> rfl

/-- Some result decides if and only if one passed. -/
theorem isSome_triggered (results : List RuleResult) :
    (triggered results).isSome = results.any (·.passed) := by
  unfold triggered deciding
  rw [isSome_leastBy, Bool.eq_iff_iff]
  simp [List.filter_eq_nil_iff]

namespace TickLog

/-- A tick acts if and only if a rule passed, and then as its state asks for. -/
theorem action_ofResults (ctx : Context) (state : PositionState) (results : List RuleResult) :
    (ofResults ctx state results).action
      = if results.any (·.passed) then some state.action else none := by
  rw [← isSome_triggered]
  show ((triggered results).map fun r => (state.action, r.number)).map (·.1) = _
  cases triggered results <;> rfl

/-- The results of a log are those of the active rules of a list, in the order in which they are tried. -/
def Evaluates (log : TickLog) (listed : List Rule) : Prop :=
  ∃ (ctx : Context) (tried : List Rule),
    tried.Perm (listed.filter (·.active)) ∧ log.results = tried.map (·.evaluate ctx)

/-- A log follows the rules it was made from. -/
structure Follows (log : TickLog) (rules : RuleSet) : Prop where
  /-- While nothing is held the buying rules are evaluated, and they do not lead to an exit. -/
  flat : log.state = .flat → log.side = .buy ∧ log.Evaluates rules.buying ∧ log.action ≠ some .exit
  /-- While something is held the selling rules are evaluated, and they do not lead to an entry. -/
  holding : log.state = .holding → log.side = .sell ∧ log.Evaluates rules.selling ∧ log.action ≠ some .entry
  /-- The tick acts if and only if some rule passed. -/
  acts : log.action.isSome = true ↔ ∃ result ∈ log.results, result.passed = true
  /-- A rule number stands beside an action and nowhere else. -/
  numbered : log.actionRule.isSome = log.action.isSome

theorem follows_ofResults (rules : RuleSet) (ctx : Context) (state : PositionState) :
    (ofResults ctx state ((rules.active state.side).map (·.evaluate ctx))).Follows rules := by
  have hperm : ∀ side, (rules.active side).Perm ((rules.listed side).filter (·.active)) :=
    fun side => List.mergeSort_perm _ _
  have haction := action_ofResults ctx state ((rules.active state.side).map (·.evaluate ctx))
  refine ⟨?_, ?_, ?_, ?_⟩
  · intro hstate
    cases hstate
    refine ⟨rfl, ⟨ctx, _, hperm .buy, rfl⟩, ?_⟩
    rw [haction]
    split <;> exact nofun
  · intro hstate
    cases hstate
    refine ⟨rfl, ⟨ctx, _, hperm .sell, rfl⟩, ?_⟩
    rw [haction]
    split <;> exact nofun
  · rw [haction, ← List.any_eq_true]
    show _ ↔ ((rules.active state.side).map (·.evaluate ctx)).any (·.passed) = true
    split
    case isTrue hpassed => exact iff_of_true rfl hpassed
    case isFalse hpassed => exact iff_of_false (by exact nofun) hpassed
  · unfold actionRule action
    rw [Option.isSome_map, Option.isSome_map]

end TickLog

/-! ## Runs -/

namespace Replay

variable {r next : Replay} {bar : Snapshot} {bars : List Snapshot} {log : TickLog} {logs : List TickLog}

/-- What a step has to do with states: its log is made in the state of the tracker, and its action leads to the
state after it. -/
theorem states_of_step (hstep : r.step bar = .ok (next, log)) :
    log.state = r.tracker.state ∧ (∀ a, log.action = some a → a = r.tracker.state.action) ∧
      next.tracker.state = r.tracker.state.next log.action := by
  obtain ⟨metrics, -, -, hlog, -, htracker⟩ := step_eq_ok.mp hstep
  refine ⟨by rw [hlog]; rfl, ?_, ?_⟩
  · intro a ha
    rw [hlog, TickLog.action_ofResults] at ha
    split at ha
    · exact (Option.some.inj ha).symm
    · cases ha
  · rw [htracker, Tracker.state_act, Tracker.state_observe]

/-- **The actions of a run** are those that the states on the way ask for. -/
theorem permits_of_run (hrun : r.run bars = .ok logs) : r.tracker.state.Permits (logs.map (·.action)) := by
  induction bars generalizing r logs with
  | nil =>
      rw [run_nil_eq_ok.mp hrun]
      trivial
  | cons bar bars ih =>
      obtain ⟨next, log, rest, hstep, hrest, rfl⟩ := run_cons_eq_ok.mp hrun
      obtain ⟨-, haction, hnext⟩ := states_of_step hstep
      refine ⟨haction, ?_⟩
      rw [← hnext]
      exact ih hrest

/-- **The states of a run** are those that the actions before them lead to. -/
theorem state_of_run (hrun : r.run bars = .ok logs) {i : Nat} (hlog : logs[i]? = some log) :
    log.state = r.tracker.state.after ((logs.take i).map (·.action)) := by
  induction bars generalizing r logs i with
  | nil =>
      rw [run_nil_eq_ok.mp hrun] at hlog
      cases hlog
  | cons bar bars ih =>
      obtain ⟨next, first, rest, hstep, hrest, rfl⟩ := run_cons_eq_ok.mp hrun
      obtain ⟨hstate, -, hnext⟩ := states_of_step hstep
      cases i with
      | zero =>
          cases hlog
          exact hstate
      | succ i =>
          rw [List.take_succ_cons, List.map_cons, PositionState.after_cons, ← hnext]
          exact ih hrest hlog

/-- Every log of a run follows the rules. -/
theorem follows_of_run {rules : RuleSet} (hloaded : r.engine.Loaded rules) (hrun : r.run bars = .ok logs) :
    ∀ log ∈ logs, log.Follows rules := by
  induction bars generalizing r logs with
  | nil =>
      rw [run_nil_eq_ok.mp hrun]
      exact List.forall_mem_nil _
  | cons bar bars ih =>
      obtain ⟨next, log, rest, hstep, hrest, rfl⟩ := run_cons_eq_ok.mp hrun
      have hfollows : log.Follows rules := by
        rw [log_of_step hloaded hstep]
        exact TickLog.follows_ofResults ..
      exact List.forall_mem_cons.mpr ⟨hfollows, ih (loaded_of_step hloaded hstep) hrest⟩

end Replay

/-! ## Replays -/

namespace History

variable {h : History} {rules : RuleSet} {capacity : Option Int} {settings : Except ConfigError Settings}
  {logs : List TickLog}

/-- The logs of a replay are those of a run that begins with no position, if there are any. -/
theorem exists_run_of_replay (hreplay : h.replay rules capacity settings = .ok logs) :
    ∃ window bars, (Replay.start rules window).run bars = .ok logs ∧ bars.length = h.bars.length := by
  by_cases hbars : h.bars = []
  · rw [replay_of_bars_nil hbars] at hreplay
    cases hreplay
    exact ⟨⟨2, [], by decide, by decide⟩, [], rfl, by rw [hbars]; rfl⟩
  · obtain ⟨window, bars, -, hsnapshots, hrun⟩ := (replay_eq_ok hbars).mp hreplay
    exact ⟨window, bars, hrun, length_snapshots (h := h.withPositions none) hsnapshots⟩

/-- **A replay enters and leaves in turn.** There is one log for every bar. The first is made with nothing held,
and each of the others in the state that the one before it leads to. A log evaluates the active rules of the
side of its state and nothing else, and acts, as that state asks for, if and only if a rule passed. So the actions
are an entry and an exit in turn, and at every bar there have been as many entries as exits, and one more if
a position is open. -/
theorem replay_alternates (hreplay : h.replay rules capacity settings = .ok logs) :
    logs.length = h.bars.length ∧
    (∀ log, logs[0]? = some log → log.state = .flat) ∧
    (∀ i log next, logs[i]? = some log → logs[i + 1]? = some next → next.state = log.state.next log.action) ∧
    (∀ log ∈ logs, log.Follows rules) ∧
    (∀ n action, (logs.filterMap (·.action))[n]? = some action →
      action = if n % 2 = 0 then .entry else .exit) ∧
    (∀ k, ((logs.take k).map (·.action)).count (some .entry)
      = ((logs.take k).map (·.action)).count (some .exit)
        + if PositionState.flat.after ((logs.take k).map (·.action)) = .holding then 1 else 0) := by
  obtain ⟨window, bars, hrun, hlength⟩ := exists_run_of_replay hreplay
  -- a replay begins with nothing held, so the laws of runs hold from that state on
  have hpermits : PositionState.flat.Permits (logs.map (·.action)) := Replay.permits_of_run hrun
  have hstate : ∀ {i log}, logs[i]? = some log →
      log.state = PositionState.flat.after ((logs.take i).map (·.action)) :=
    fun hlog => Replay.state_of_run hrun hlog
  refine ⟨(Replay.length_run hrun).trans hlength, ?_, ?_,
    Replay.follows_of_run (Engine.loaded_ofRules rules) hrun, ?_, ?_⟩
  · intro log hlog
    rw [hstate hlog]
    rfl
  · intro i log next hlog hnext
    rw [hstate hnext, hstate hlog, List.take_add_one, hlog, List.map_append]
    exact List.foldl_append
  · intro n action haction
    rw [← Function.id_comp TickLog.action, ← List.filterMap_map] at haction
    exact hpermits.getElem?_filterMap haction
  · intro k
    have hcount := (hpermits.take k).count_entry
    rwa [← List.map_take, if_neg nofun, Nat.add_zero] at hcount

/-- The trade enters, leaves and does nothing more, so nothing is held after it. -/
theorem replay_alternates_trade :
    ∃ logs, trade.replay .trade (some 6) (.ok {}) = .ok logs ∧
      logs.map (·.action) = [some .entry, some .exit, none] ∧
      logs.map (·.state) = [.flat, .holding, .flat] ∧
      logs.length = trade.bars.length ∧ ∀ log ∈ logs, log.Follows .trade := by
  obtain ⟨logs, hlogs, hticks⟩ := exists_ok_of_any
    (x := trade.replay .trade (some 6) (.ok {}))
    (p := fun logs => logs.map (·.action) == [some .entry, some .exit, none] &&
      logs.map (·.state) == [.flat, .holding, .flat]) (by decide +kernel)
  obtain ⟨hactions, hstates⟩ := (Bool.and_eq_true _ _).mp hticks
  obtain ⟨hlength, -, -, hfollows, -, -⟩ := replay_alternates hlogs
  exact ⟨logs, hlogs, beq_iff_eq.mp hactions, beq_iff_eq.mp hstates, hlength, hfollows⟩

end History

end TradingRules
