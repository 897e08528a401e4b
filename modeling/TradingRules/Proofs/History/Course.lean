import TradingRules.Proofs.History.Replay

/-!
# `Proofs.History.Course` — how far a replay has come

A run goes from its first bar to its last, and what it does at a bar depends on all that it did before. A
course is a run as seen from a bar on the way: the bars so far, the logs they made, and the state that they
led to. It grows at its end, so what every step preserves holds of every course by induction.

## Contents
* `Replay.Course` — the courses from a state;
* `Course.run_append` — a run goes on from its courses;
* `Replay.exists_step_of_run`, `Replay.exists_failure_of_run` — the course to a log, and to a failure.
-/

namespace TradingRules

open Fallible

namespace Replay

/-- From a state several bars made logs, one a bar, and led to another state. -/
inductive Course (r : Replay) : List Snapshot → List TickLog → Replay → Prop
  | start : Course r [] [] r
  | bar {bars : List Snapshot} {logs : List TickLog} {now next : Replay} {bar : Snapshot} {log : TickLog}
      (past : Course r bars logs now) (step : now.step bar = .ok (next, log)) :
      Course r (bars ++ [bar]) (logs ++ [log]) next

variable {r now : Replay} {bars rest : List Snapshot} {logs : List TickLog}

theorem run_cons_of_step {next : Replay} {bar : Snapshot} {log : TickLog} (hstep : r.step bar = .ok (next, log)) :
    r.run (bar :: bars) = (next.run bars).map (log :: ·) := by
  rw [run, hstep]
  rfl

/-- A run fails at its first bar or after it. -/
theorem run_cons_eq_error {bar : Snapshot} {e : TrackError} :
    r.run (bar :: bars) = .error e ↔
      r.step bar = .error e ∨ ∃ next log, r.step bar = .ok (next, log) ∧ next.run bars = .error e := by
  rw [run, bind_eq_error]
  refine or_congr_right ?_
  constructor
  · rintro ⟨⟨next, log⟩, hstep, hrest⟩
    exact ⟨next, log, hstep, map_eq_error.mp hrest⟩
  · rintro ⟨next, log, hstep, hrest⟩
    exact ⟨(next, log), hstep, map_eq_error.mpr hrest⟩

theorem Course.length_eq (h : Course r bars logs now) : logs.length = bars.length := by
  induction h with
  | start => rfl
  | bar _ _ ih => rw [List.length_append, List.length_append, ih, List.length_singleton, List.length_singleton]

/-- The rules are the same all the way. -/
theorem Course.loaded (h : Course r bars logs now) {rules : RuleSet} (hloaded : r.engine.Loaded rules) :
    now.engine.Loaded rules := by
  induction h with
  | start => exact hloaded
  | bar _ step ih => exact loaded_of_step ih step

/-- **A run goes on from its courses** as a run of the state there. -/
theorem Course.run_append (h : Course r bars logs now) : r.run (bars ++ rest) = (now.run rest).map (logs ++ ·) := by
  induction h generalizing rest with
  | start => cases hrest : r.run rest <;> rw [List.nil_append, hrest] <;> rfl
  | @bar bars logs now next bar log _ hstep ih =>
      rw [List.append_assoc, List.singleton_append, ih, run_cons_of_step hstep]
      cases next.run rest with
      | error e => rfl
      | ok later => simp [Except.map]

theorem Course.run_eq (h : Course r bars logs now) : r.run bars = .ok logs := by
  have hrun : r.run (bars ++ []) = (now.run []).map (logs ++ ·) := h.run_append
  rw [List.append_nil] at hrun
  rw [hrun]
  exact congrArg Except.ok (List.append_nil logs)

/-- A step fails if and only if the tracker does. -/
theorem step_eq_error {bar : Snapshot} {e : TrackError} :
    r.step bar = .error e ↔ (r.tracker.observe bar.close bar.timestamp).2 = .error e := by
  constructor
  · intro hstep
    rcases bind_eq_error.mp hstep with hobserve | ⟨metrics, -, hrest⟩
    · exact hobserve
    · cases hrest
  · intro hobserve
    exact bind_eq_error.mpr (.inl hobserve)

/-- A state on the way that runs on has come along a course to each of the bars, and goes on from there. -/
theorem Course.exists_at {past : List Snapshot} {pastLogs : List TickLog} (hpast : Course r past pastLogs now)
    (hrun : now.run bars = .ok logs) (i : Nat) :
    ∃ before, Course r (past ++ bars.take i) (pastLogs ++ logs.take i) before ∧
      before.run (bars.drop i) = .ok (logs.drop i) := by
  induction bars generalizing past pastLogs now logs i with
  | nil =>
      rw [run_nil_eq_ok.mp hrun, List.take_nil, List.take_nil, List.append_nil, List.append_nil, List.drop_nil]
      exact ⟨now, hpast, run_nil_eq_ok.mpr List.drop_nil⟩
  | cons bar bars ih =>
      -- the course either ends here or goes on with a step, which moves one bar into the past
      cases i with
      | zero =>
          rw [List.take_zero, List.take_zero, List.append_nil, List.append_nil]
          exact ⟨now, hpast, hrun⟩
      | succ i =>
          obtain ⟨next, first, rest, hstep, hrest, rfl⟩ := run_cons_eq_ok.mp hrun
          rw [List.take_succ_cons, List.take_succ_cons, List.append_cons, List.append_cons pastLogs]
          exact ih (hpast.bar hstep) hrest i

/-- **There is a course to every log** of a run, and the log is that of the next step. -/
theorem exists_step_of_run (hrun : r.run bars = .ok logs) {i : Nat} {log : TickLog} (hlog : logs[i]? = some log) :
    ∃ bar before next, bars[i]? = some bar ∧ Course r (bars.take i) (logs.take i) before ∧
      before.step bar = .ok (next, log) := by
  obtain ⟨before, hcourse, hrest⟩ := Course.start.exists_at hrun i
  obtain ⟨hi, rfl⟩ := List.getElem?_eq_some_iff.mp hlog
  have hbar : i < bars.length := by rwa [← length_run hrun]
  rw [List.drop_eq_getElem_cons hi, List.drop_eq_getElem_cons hbar] at hrest
  obtain ⟨next, log, rest, hstep, -, hcons⟩ := run_cons_eq_ok.mp hrest
  rw [(List.cons.inj hcons).1]
  exact ⟨bars[i], before, next, List.getElem?_eq_getElem hbar, hcourse, hstep⟩

/-- There is a course to the end of a run. -/
theorem exists_course_of_run (hrun : r.run bars = .ok logs) : ∃ now, Course r bars logs now := by
  obtain ⟨now, hcourse, -⟩ := Course.start.exists_at hrun bars.length
  rw [List.take_length, List.take_of_length_le (Nat.le_of_eq (length_run hrun))] at hcourse
  exact ⟨now, hcourse⟩

/-- A state on the way fails to run on at a bar up to which there is a course. -/
theorem Course.exists_failure {past : List Snapshot} {pastLogs : List TickLog} {e : TrackError}
    (hpast : Course r past pastLogs now) (hrun : now.run bars = .error e) :
    ∃ i bar before logs, bars[i]? = some bar ∧ Course r (past ++ bars.take i) logs before ∧
      before.step bar = .error e := by
  induction bars generalizing past pastLogs now with
  | nil => cases hrun
  | cons bar bars ih =>
      rcases run_cons_eq_error.mp hrun with hfails | ⟨next, log, hstep, hrest⟩
      · refine ⟨0, bar, now, pastLogs, rfl, ?_, hfails⟩
        rwa [List.take_zero, List.append_nil]
      · obtain ⟨i, failing, before, logs, hbar, hcourse, hfails⟩ := ih (hpast.bar hstep) hrest
        refine ⟨i + 1, failing, before, logs, hbar, ?_, hfails⟩
        rwa [List.take_succ_cons, List.append_cons]

/-- **There is a course to the bar at which a run fails.** -/
theorem exists_failure_of_run {e : TrackError} (hrun : r.run bars = .error e) :
    ∃ i bar before logs, bars[i]? = some bar ∧ Course r (bars.take i) logs before ∧ before.step bar = .error e :=
  Course.start.exists_failure hrun

end Replay

end TradingRules
