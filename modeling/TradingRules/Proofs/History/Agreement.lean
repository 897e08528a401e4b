import TradingRules.Proofs.Evaluation.Alike
import TradingRules.Proofs.History.Replay
import TradingRules.Proofs.History.Series

/-!
# `Proofs.History.Agreement` — a replay agrees with the history of every rule

A replay evaluates rules bar by bar with the metrics that its tracker supplies; a history evaluates one rule
on every bar with the metrics of a frame. On the frame that holds what the tracker supplied, the two say the
same of every rule at every bar, and for a rule that tests no position they do without any frame. The bars on
the two sides differ in their raw metrics only, and these read alike: `metric_withPosition`.

## Contents
* `HoldsMetrics` — rows of a frame that hold metrics; `metricFrame` is one such frame;
* `History.supplied` — the metrics that the tracker of a replay supplies;
* `Rule.AgreesAt`, `History.replay_agrees_with_outcomes` — the agreement.
-/

namespace TradingRules

open Fallible

/-! ## Metrics in a frame -/

/-- The metrics that are known under the names by which they are read. -/
def knownFields (metrics : Option (Metrics Float)) : List (String × Json) := (metrics.map (·.fields)).getD []

/-- Nothing stands in a cell: there is no such column, or null, or NaN. -/
def Unfilled : Option Json → Prop
  | none | some .null => True
  | some (.float x) => x.isNaN = true
  | some _ => False

/-- A row of a frame holds metrics: each that is known in the column of its name, and nothing else. -/
def HoldsMetrics (cells : List (String × Json)) (metrics : Option (Metrics Float)) : Prop :=
  ∀ name, cells.lookup name = (knownFields metrics).lookup name ∨
    (Unfilled (cells.lookup name) ∧ Unfilled ((knownFields metrics).lookup name))

/-- A row of metrics as cells; where there are none all of them are null. -/
def metricCells : Option (Metrics Float) → List (String × Json)
  | some m => m.fields
  | none => [Metric.change, .bestChange, .trailing, .minutes].map fun metric => (metric.name, .null)

theorem unfilled_lookup {cells : List (String × Json)} (h : ∀ cell ∈ cells, cell.2 = .null) (name : String) :
    Unfilled (cells.lookup name) := by
  induction cells with
  | nil => trivial
  | cons cell cells ih =>
      obtain ⟨key, value⟩ := cell
      have hnull : value = .null := h (key, value) List.mem_cons_self
      rw [List.lookup_cons]
      split
      · rw [hnull]
        trivial
      · exact ih fun other hother => h other (List.mem_cons_of_mem _ hother)

theorem holdsMetrics_metricCells (metrics : Option (Metrics Float)) :
    HoldsMetrics (metricCells metrics) metrics := by
  intro name
  cases metrics with
  | some m => exact .inl rfl
  | none => exact .inr ⟨unfilled_lookup (by decide) name, trivial⟩

/-- A frame that holds several metrics, row by row. -/
def metricFrame (supplied : List (Option (Metrics Float))) : Frame :=
  supplied.map fun metrics => ⟨.value .null, metricCells metrics⟩

theorem forall₂_metricFrame (supplied : List (Option (Metrics Float))) :
    List.Forall₂ HoldsMetrics ((metricFrame supplied).map (·.cells)) supplied := by
  induction supplied with
  | nil => exact .nil
  | cons metrics supplied ih => exact .cons (holdsMetrics_metricCells metrics) ih

theorem fieldReading_of_unfilled {fields : List (String × Json)} {name : String}
    (h : Unfilled (fields.lookup name)) : fieldReading fields name = .ok none := by
  unfold fieldReading
  cases hcell : fields.lookup name with
  | none => rfl
  | some cell =>
      rw [hcell] at h
      cases cell with
      | null => rfl
      | float x =>
          have hx : present x = none := if_pos h
          show Except.ok ((some x).bind present) = .ok none
          rw [Option.bind_some, hx]
      | _ => exact h.elim

theorem HoldsMetrics.fieldReading_eq {cells : List (String × Json)} {metrics : Option (Metrics Float)}
    (h : HoldsMetrics cells metrics) (name : String) :
    fieldReading cells name = fieldReading (knownFields metrics) name := by
  rcases h name with hsame | ⟨hcells, hknown⟩
  · unfold fieldReading
    rw [hsame]
  · rw [fieldReading_of_unfilled hcells, fieldReading_of_unfilled hknown]

/-! ## Bars with metrics, and bars with a row of a frame -/

/-- A bar without metrics reads alike with the metrics of the tracker and with a row that holds them. -/
theorem metric_withPosition {bar : Snapshot} (hbar : bar.position = .obj []) {cells : List (String × Json)}
    {metrics : Option (Metrics Float)} (h : HoldsMetrics cells metrics) :
    (bar.withPosition cells).SameMetrics (bar.withMetrics metrics) := by
  intro name
  have hcells : (bar.withPosition cells).metric name = fieldReading cells name := rfl
  have hknown : (bar.withMetrics metrics).metric name = fieldReading (knownFields metrics) name := by
    cases metrics with
    | some m => rfl
    | none =>
        unfold Snapshot.metric
        rw [Snapshot.withMetrics, hbar]
        rfl
  rw [hcells, hknown, h.fieldReading_eq]

theorem sameMarket_withPosition (bar : Snapshot) (cells : List (String × Json))
    (metrics : Option (Metrics Float)) : (bar.withPosition cells).SameMarket (bar.withMetrics metrics) := by
  cases metrics <;> exact ⟨rfl, rfl⟩

theorem sameMarket_withMetrics (bar : Snapshot) (metrics : Option (Metrics Float)) :
    bar.SameMarket (bar.withMetrics metrics) := by
  cases metrics <;> exact ⟨rfl, rfl⟩

theorem forall₂_withPosition {R : Snapshot → Snapshot → Prop} {bars : List Snapshot}
    {rows : List (List (String × Json))} {supplied : List (Option (Metrics Float))}
    (hR : ∀ bar ∈ bars, ∀ cells metrics, HoldsMetrics cells metrics →
      R (bar.withPosition cells) (bar.withMetrics metrics))
    (h : List.Forall₂ HoldsMetrics rows supplied) :
    List.Forall₂ R (List.zipWith Snapshot.withPosition bars rows)
      (List.zipWith Snapshot.withMetrics bars supplied) := by
  induction h generalizing bars with
  | nil => rw [List.zipWith_nil_right, List.zipWith_nil_right]; exact .nil
  | cons hrow _ ih =>
      cases bars with
      | nil => exact .nil
      | cons bar bars =>
          exact .cons (hR bar List.mem_cons_self _ _ hrow)
            (ih fun other hother => hR other (List.mem_cons_of_mem _ hother))

theorem forall₂_withMetrics {bars : List Snapshot} {supplied : List (Option (Metrics Float))}
    (hlength : supplied.length = bars.length) :
    List.Forall₂ Snapshot.SameMarket bars (List.zipWith Snapshot.withMetrics bars supplied) := by
  induction bars generalizing supplied with
  | nil => exact .nil
  | cons bar bars ih =>
      cases supplied with
      | nil => cases hlength
      | cons metrics supplied =>
          exact .cons (sameMarket_withMetrics bar metrics) (ih (by simpa using hlength))

/-! ## The agreement -/

namespace History

variable {h : History} {rules : RuleSet} {capacity : Option Int} {settings : Except ConfigError Settings}

/-- The metrics that the tracker of a replay supplies, bar by bar. -/
def supplied (h : History) (rules : RuleSet) (capacity : Option Int) (settings : Except ConfigError Settings) :
    Except HistoryError (List (Option (Metrics Float))) :=
  if h.bars.isEmpty then .ok []
  else do
    let window ← openWindow capacity settings
    let bars ← (h.withPositions none).snapshots
    ((Replay.start rules window).supplied bars).mapError .track

end History

/-- At a bar of a history a rule has the outcome that a result records, if the rule can be evaluated on the
whole history, on a frame of positions or on none. -/
def Rule.AgreesAt (r : Rule) (result : RuleResult) (h : History) (capacity : Option Int)
    (settings : Except ConfigError Settings) (positions : Option Frame) (i : Nat) : Prop :=
  ∀ outcomes, (h.withPositions positions).ruleOutcomes r capacity settings = .ok outcomes →
    outcomes[i]? = some result.passed

/-- A rule agrees with its result on bars that are alike for its tree. -/
theorem Rule.agreesAt_of_bars {r : Rule} {h : History} {capacity : Option Int}
    {settings : Except ConfigError Settings} {positions : Option Frame} {window : Window}
    {bars seen : List Snapshot} {i : Nat} (hbars : h.bars ≠ [])
    (hwindow : History.openWindow capacity settings = .ok window)
    (hsnapshots : (h.withPositions positions).snapshots = .ok bars) (hi : i < bars.length)
    (hmarket : List.Forall₂ Snapshot.SameMarket bars seen)
    (hmetrics : r.tree.toCondition.testsPosition = true → List.Forall₂ Snapshot.SameMetrics bars seen) :
    r.AgreesAt (r.evaluate (window.pushAll (seen.take (i + 1))).context) h capacity settings positions i := by
  intro outcomes houtcomes
  obtain ⟨window', bars', hwindow', hsnapshots', hon⟩ :=
    (History.outcomes_eq_ok (h := h.withPositions positions) hbars).mp houtcomes
  cases hwindow.symm.trans hwindow'
  cases hsnapshots.symm.trans hsnapshots'
  obtain ⟨trace, htrace, hpassed⟩ := History.evaluate_of_outcomesOn hon hi
  have hempty : window.recent = [] := History.recent_of_openWindow hwindow
  -- the history saw the other bars, but came on them to the same trace
  have hseen : r.tree.toCondition.evaluate (window.pushAll (seen.take (i + 1))).context = .ok trace := by
    rw [← htrace]
    refine (Condition.evaluate_pushAll_congr hempty (List.forall₂_take _ hmarket) ?_).symm
    intro htests
    exact List.forall₂_take _ (hmetrics htests)
  rw [hpassed, Rule.passed_evaluate hseen]

namespace History

variable {h : History} {rules : RuleSet} {capacity : Option Int} {settings : Except ConfigError Settings}
  {logs : List TickLog}

/-- **A replay agrees with the history of every rule.** In every log of a replay there is one result for each
active rule of its side, in their order, and a rule whose history can be evaluated on a frame that holds the
metrics the tracker supplied has there, at the bar of the log, the outcome that the result records. A rule that
tests no position needs no frame. -/
theorem replay_agrees_with_outcomes (hreplay : h.replay rules capacity settings = .ok logs) :
    ∃ supplied, h.supplied rules capacity settings = .ok supplied ∧
      ∀ (i : Nat) (log : TickLog), logs[i]? = some log →
        List.Forall₂ (fun (rule : Rule) (result : RuleResult) =>
            (result.number = rule.number ∧ result.side = rule.side ∧ result.priority = rule.priority) ∧
            (∀ positions : Frame, List.Forall₂ HoldsMetrics (positions.map (·.cells)) supplied →
              rule.AgreesAt result h capacity settings (some positions) i) ∧
            (rule.tree.toCondition.testsPosition = false →
              rule.AgreesAt result h capacity settings none i))
          (rules.active log.side) log.results := by
  by_cases hbars : h.bars = []
  · rw [replay_of_bars_nil hbars] at hreplay
    cases hreplay
    refine ⟨[], by unfold supplied; rw [hbars]; rfl, ?_⟩
    intro i log hlog
    cases hlog
  · obtain ⟨window, bars, hwindow, hsnapshots, hrun⟩ := (replay_eq_ok hbars).mp hreplay
    obtain ⟨metrics, hmetrics, hlength⟩ := Replay.exists_supplied hrun
    refine ⟨metrics, ?_, ?_⟩
    · unfold supplied
      rw [if_neg (by simpa using hbars)]
      exact bind_eq_ok.mpr ⟨window, hwindow, bind_eq_ok.mpr ⟨bars, hsnapshots, mapError_eq_ok.mpr hmetrics⟩⟩
    · intro i log hlog
      have hi : i < bars.length := by
        rw [← Replay.length_run hrun]
        exact (List.getElem?_eq_some_iff.mp hlog).1
      rw [Replay.results_of_run (Engine.loaded_ofRules rules) hrun hmetrics hlog, List.forall₂_map_right_iff]
      refine List.forall₂_same.mpr ?_
      intro rule _
      refine ⟨⟨rfl, rfl, rfl⟩, ?_, ?_⟩
      · -- the frame holds, row by row, what was supplied
        intro positions hpositions
        have hrows : positions.length = h.bars.length := calc
          positions.length = (positions.map (·.cells)).length := (List.length_map _).symm
          _ = metrics.length := hpositions.length_eq
          _ = bars.length := hlength
          _ = h.bars.length := length_snapshots (h := h.withPositions none) hsnapshots
        have hposition : ∀ bar ∈ bars, bar.position = .obj [] :=
          fun bar hbar => position_of_mem_snapshots hsnapshots rfl hbar
        have hframe := snapshots_withPositions (h := h.withPositions none) hsnapshots hrows
        refine Rule.agreesAt_of_bars hbars hwindow hframe ?_ ?_ ?_
        · rwa [List.length_zipWith, hpositions.length_eq, hlength, Nat.min_self]
        · exact forall₂_withPosition (fun bar _ cells metrics _ => sameMarket_withPosition bar cells metrics)
            hpositions
        · intro _
          exact forall₂_withPosition (fun bar hbar _ _ hrow => metric_withPosition (hposition bar hbar) hrow)
            hpositions
      · intro hfree
        refine Rule.agreesAt_of_bars hbars hwindow hsnapshots hi (forall₂_withMetrics hlength) ?_
        rw [hfree]
        exact nofun

/-- On the second bar of the trade the selling rule has the outcome that it has in its own history, on the frame
of what the tracker supplied. -/
theorem replay_agrees_with_outcomes_trade :
    ∃ logs supplied log result, trade.replay .trade (some 6) (.ok {}) = .ok logs ∧
      trade.supplied .trade (some 6) (.ok {}) = .ok supplied ∧ logs[1]? = some log ∧ log.results = [result] ∧
      (trade.withPositions (some (metricFrame supplied))).ruleOutcomes .sellGain (some 6) (.ok {})
        = .ok [false, true, false] ∧
      result.passed = true := by
  obtain ⟨logs, hlogs, hsides⟩ := exists_ok_of_any
    (x := trade.replay .trade (some 6) (.ok {}))
    (p := fun logs => (logs[1]?).any (·.side == .sell)) (by decide +kernel)
  obtain ⟨supplied, hsupplied, houtcomes⟩ := exists_ok_of_any
    (x := trade.supplied .trade (some 6) (.ok {}))
    (p := fun supplied => (trade.withPositions (some (metricFrame supplied))).ruleOutcomes .sellGain (some 6)
      (.ok {}) == .ok [false, true, false]) (by decide +kernel)
  obtain ⟨log, hlog, hside⟩ := (Option.any_eq_true _ _).mp hsides
  obtain ⟨supplied', hsupplied', hagree⟩ := replay_agrees_with_outcomes hlogs
  cases hsupplied.symm.trans hsupplied'
  have hactive : RuleSet.trade.active log.side = [.sellGain] := by
    rw [beq_iff_eq.mp hside]
    decide +kernel
  have hresults := hagree 1 log hlog
  rw [hactive] at hresults
  obtain ⟨result, rest, ⟨-, hframe, -⟩, hrest, hcons⟩ := List.forall₂_cons_left_iff.mp hresults
  cases List.forall₂_nil_left_iff.mp hrest
  have hpassed := hframe (metricFrame supplied) (forall₂_metricFrame supplied) _ (beq_iff_eq.mp houtcomes)
  exact ⟨logs, supplied, log, result, hlogs, hsupplied, hlog, hcons, beq_iff_eq.mp houtcomes,
    (Option.some.inj hpassed).symm⟩

end History

end TradingRules
