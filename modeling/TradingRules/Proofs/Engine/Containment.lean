import TradingRules.Proofs.Engine.Recorded
import TradingRules.Proofs.Engine.Selection
import TradingRules.Proofs.Evaluation.Faithful
import TradingRules.Proofs.Evaluation.Faults

/-!
# `Proofs.Engine.Containment` — faults stay with their rules

Data that cannot be read stops no rule but those that ask for it. A rule whose tree has a leaf that fails has
failed, with the logic of its root and nothing below in its trace, also where its other leaves would have decided
it. Every other rule has the trace of its tree, and each result is as if the rule stood alone
(`Engine.tick_contains_faults`). The one thing that data can stop is the record of the tick: it takes the prices of
the current bar as they were given, after all rules have been evaluated, and fails if one of them is no number
(`Engine.not_always_recorded`).

## Contents
* `Group.TracedAs` — what the trace of a rule's tree says;
* `RuleSet.only` — one rule alone;
* `Context.Recordable` — the prices of the current bar can be put on record;
* `Engine.tick_contains_faults` — what a tick comes to, whatever the data.
-/

namespace TradingRules

open Fallible

/-! ## One tree -/

/-- Somewhere in a tree there is a leaf that fails. -/
def Group.Faulty (ctx : Context) (g : Group) : Prop := g.toCondition.Faulty ctx

theorem Group.fails_evaluate_iff (ctx : Context) (g : Group) : Fails (g.evaluate ctx) ↔ g.Faulty ctx := by
  unfold Faulty
  rw [← Condition.fails_evaluate_iff, evaluate_toCondition, fails_map]

/-- The trace that is recorded for a tree: empty because of a fault, and full without one. -/
structure Group.TracedAs (ctx : Context) (g : Group) (trace : GroupTrace) : Prop where
  /-- A tree with children has an empty trace exactly if some leaf fails. -/
  empty_iff : g.children ≠ [] → (trace.children = [] ↔ g.Faulty ctx)
  /-- A trace that is empty because of a fault has failed, and keeps the logic of the root. -/
  failed : g.Faulty ctx → trace = { logic := g.logic, passed := false, children := [] }
  /-- Without a fault the trace is what the tree comes to, and has its whole outline. -/
  full : ¬g.Faulty ctx → g.evaluate ctx = .ok trace ∧ trace.toTrace.outline = g.toCondition.outline

/-- A trace that was evaluated has a child for every child of the tree. -/
theorem Group.length_children_of_evaluate {g : Group} {ctx : Context} {trace : GroupTrace}
    (h : g.evaluate ctx = .ok trace) : g.children.length = trace.children.length := by
  obtain ⟨traces, htraces, rfl⟩ := map_eq_ok.mp h
  exact (Condition.evaluateAll_eq_ok.mp htraces).length_eq

/-- **What is recorded for a tree**, whatever the data. -/
theorem Group.tracedAs_traceOn (ctx : Context) (g : Group) : g.TracedAs ctx (g.traceOn ctx) := by
  by_cases hfaulty : g.Faulty ctx
  · obtain ⟨e, he⟩ := (g.fails_evaluate_iff ctx).mpr hfaulty
    rw [traceOn_of_error he]
    exact ⟨fun _ => iff_of_true rfl hfaulty, fun _ => rfl, fun h => absurd hfaulty h⟩
  · obtain ⟨trace, htrace⟩ := not_fails_iff.mp (mt (g.fails_evaluate_iff ctx).mp hfaulty)
    rw [traceOn_of_ok htrace]
    refine ⟨?_, fun h => absurd h hfaulty, fun _ => ⟨htrace, ?_⟩⟩
    · intro hchildren
      refine iff_of_false ?_ hfaulty
      rw [← List.length_eq_zero_iff, ← length_children_of_evaluate htrace, List.length_eq_zero_iff]
      exact hchildren
    · exact Condition.outline_of_evaluate (toCondition_of_evaluate htrace)

/-! ## One rule -/

namespace RuleSet

/-- One rule alone on its side. -/
def only (side : Side) (r : Rule) : RuleSet :=
  match side with
  | .buy => { buying := [r] }
  | .sell => { selling := [r] }

theorem active_only {r : Rule} (h : r.active = true) (side : Side) : (only side r).active side = [r] := by
  have hlisted : (only side r).listed side = [r] := by cases side <;> rfl
  unfold active byPriority
  rw [hlisted, List.filter_cons_of_pos h, List.filter_nil, List.mergeSort_singleton]

end RuleSet

/-- The rule that a result is of. -/
def RuleResult.label (result : RuleResult) : Nat × Side × Nat := (result.number, result.side, result.priority)

/-! ## The current bar -/

/-- The prices of the current bar can be put on record. -/
def Context.Recordable (ctx : Context) : Prop :=
  ∀ bar, ctx.current = some bar → ∀ field, (bar.price.given field).Recordable

theorem Context.recordable_of_none {ctx : Context} (h : ctx.current = none) : ctx.Recordable := by
  intro bar hbar
  rw [h] at hbar
  cases hbar

theorem Context.recordable_iff {ctx : Context} {bar : Snapshot} (h : ctx.current = some bar) :
    ctx.Recordable ↔ ∀ field, (bar.price.given field).Recordable := by
  simp [Recordable, h]

/-- The prices of a log can be put on record if those of the current bar can. -/
theorem TickLog.recordable_ofResults (ctx : Context) (state : PositionState) (results : List RuleResult) :
    (∀ field, ((ofResults ctx state results).price.given field).Recordable) ↔ ctx.Recordable := by
  cases hcurrent : ctx.current with
  | none =>
      rw [price_ofResults_of_none hcurrent]
      refine iff_of_true ?_ (Context.recordable_of_none hcurrent)
      intro field
      cases field <;> trivial
  | some bar => rw [price_ofResults hcurrent, Context.recordable_iff hcurrent]

/-- **A log goes on record if the prices of the current bar can**, and otherwise the issues name those that cannot. -/
theorem TickLog.recorded_ofResults (ctx : Context) (state : PositionState) (results : List RuleResult) :
    (ctx.Recordable → ∃ price, (ofResults ctx state results).price.recorded = .ok price ∧
      (ofResults ctx state results).recorded = .ok { ofResults ctx state results with price }) ∧
    (¬ctx.Recordable → ∃ issues, (ofResults ctx state results).recorded = .error (.invalid issues) ∧
      ∀ path, (∃ issue ∈ issues, issue.path = path) ↔ ∃ (bar : Snapshot) (field : PriceField),
        ctx.current = some bar ∧ ¬(bar.price.given field).Recordable ∧ path = [.key field.recordName]) := by
  have hprices := recordable_ofResults ctx state results
  rcases (ofResults ctx state results).recorded_cases with
    ⟨hall, price, hprice, hrecorded⟩ | ⟨hnot, issues, hissues, hpaths⟩
  · have hrecordable : ctx.Recordable := hprices.mp hall
    exact ⟨fun _ => ⟨price, hprice, hrecorded⟩, fun h => absurd hrecordable h⟩
  · have hrefused : ¬ctx.Recordable := mt hprices.mpr hnot
    refine ⟨fun h => absurd h hrefused, fun _ => ⟨issues, hissues, ?_⟩⟩
    intro path
    rw [hpaths path]
    -- without a bar nothing would have been refused
    cases hcurrent : ctx.current with
    | none => exact absurd (Context.recordable_of_none hcurrent) hrefused
    | some bar =>
        rw [price_ofResults hcurrent]
        simp

namespace Engine

/-- **Faults stay with their rules.** Whatever the data, a tick in either state has one result for each active rule
of the side, in the order in which these are tried, and on other data it has results of the same rules in the same
order. The trace of a rule with children is empty, and the rule fails, exactly if some leaf of its tree cannot be
read, wherever that stands; otherwise it is the full trace of the tree. And each result is the one that the rule has
if it stands alone. The outcomes are remembered in any case. If the prices of the current bar can be put on record,
the tick gives a log with these results and the prices as numbers; if not it gives none, and the issues name the
prices that cannot. -/
theorem tick_contains_faults (rules : RuleSet) (outcomes : List (Nat × Bool)) (ctx : Context) (state : PositionState) :
    let e : Engine := { ofRules rules with outcomes }
    let log := (e.tick ctx state).2
    List.Forall₂ (fun r result => result.label = (r.number, r.side, r.priority) ∧
        r.tree.TracedAs ctx result.trace ∧
        ((ofRules (.only state.side r)).tick ctx state).2.results = [result])
      (rules.active state.side) log.results ∧
    (∀ other, (e.tick other state).2.results.map RuleResult.label = log.results.map RuleResult.label) ∧
    (e.evaluateTick ctx (.str state.name)).1 = { e with outcomes := record outcomes log.results } ∧
    (ctx.Recordable → ∃ price, log.price.recorded = .ok price ∧
      (e.evaluateTick ctx (.str state.name)).2 = .ok { log with price }) ∧
    (¬ctx.Recordable → ∃ issues, (e.evaluateTick ctx (.str state.name)).2 = .error (.invalid issues) ∧
      ∀ path, (∃ issue ∈ issues, issue.path = path) ↔ ∃ (bar : Snapshot) (field : PriceField),
        ctx.current = some bar ∧ ¬(bar.price.given field).Recordable ∧ path = [.key field.recordName]) := by
  intro e log
  have hloaded : e.Loaded rules := (loaded_ofRules rules).withOutcomes outcomes
  rw [evaluateTick_name]
  refine ⟨?rules, ?labels, rfl, TickLog.recorded_ofResults ctx state _⟩
  case rules =>
    rw [hloaded.results_tick_eq, List.forall₂_map_right_iff, List.forall₂_same]
    intro r hr
    refine ⟨rfl, r.tree.tracedAs_traceOn ctx, ?_⟩
    rw [(loaded_ofRules _).results_tick_eq, RuleSet.active_only (RuleSet.mem_active.mp hr).2, List.map_singleton]
  case labels =>
    intro other
    rw [hloaded.results_tick_eq, hloaded.results_tick_eq, List.map_map, List.map_map]
    rfl

/-- Sells at a gain or at a crossing. -/
def atGainOrCrossing : Rule where
  number := 1
  side := .sell
  tree := { logic := .or, children := [
    .leaf (.position { field := Metric.change.name, comparison := .gt, operand := .scalar 5.0 }),
    .group .and [.leaf (.cross { target := some 9, targetField := some "value" })]] }

/-- A bar at a gain, on which the entry of an indicator is a list. -/
def tornGain : Context := ⟨[{ position := .obj [(Metric.change.name, .float 6.0)], indicators := [(9, .arr [])] }]⟩

theorem faulty_atGainOrCrossing : atGainOrCrossing.tree.Faulty tornGain := by
  refine ⟨.cross { target := some 9, targetField := some "value" }, ?_, .indicator (some 9) "value" 0, ?_, ?_⟩
  · simp [atGainOrCrossing, Group.toCondition]
  · exact List.mem_cons_of_mem _ (List.mem_cons_of_mem _ List.mem_cons_self)
  · refine ⟨by decide, 9, _, .arr [], rfl, rfl, rfl, ?_, trivial⟩
    exact Json.noConfusion

/-- Buys while an indicator is below the close. -/
def belowClose : RuleSet where
  buying := [{
    number := 1
    side := .buy
    tree := { children := [.leaf (.price { indicator := some 1, field := "value", comparison := .lt })] } }]

/-- An integer that no double is near. -/
def boundless : Int := Nat.pow 10 400

theorem floatOfInt?_boundless : Decimal.floatOfInt? boundless = none := by decide +kernel

/-- A bar with such a close. -/
def boundlessClose : Context :=
  ⟨[{ indicators := [(1, .obj [("value", .float 75.0)])], price := { closing := .int boundless } }]⟩

theorem not_recordable_boundlessClose : ¬boundlessClose.Recordable := by
  intro h
  exact h _ rfl .closing floatOfInt?_boundless

/-- A tick in a named state does not always give a log. -/
theorem not_always_recorded :
    ¬∀ (rules : RuleSet) (ctx : Context) (state : PositionState),
      ∃ log, ((ofRules rules).evaluateTick ctx (.str state.name)).2 = .ok log := by
  intro halways
  obtain ⟨log, hlog⟩ := halways belowClose boundlessClose .flat
  rw [evaluateTick_name] at hlog
  have hresults := TickLog.recorded_ofResults boundlessClose .flat
    ((ofRules belowClose).evaluateSide .buy boundlessClose).2
  obtain ⟨issues, hissues, -⟩ := hresults.2 not_recordable_boundlessClose
  have hrefused : ((ofRules belowClose).tick boundlessClose .flat).2.recorded = .error (.invalid issues) := hissues
  rw [hrefused] at hlog
  cases hlog

/-- The first rule has no trace, though the gain alone would have decided it; the second rule passes, and there is a
log. With the boundless close the rule that reads it is remembered as failed, and there is none. -/
theorem tick_contains_faults_torn :
    (∃ log, ((ofRules { selling := [atGainOrCrossing, .atGain 2 1] }).evaluateTick tornGain (.str "HOLDING")).2 =
        .ok log ∧
      log.results.map (fun result => (result.number, result.trace.children.length, result.passed)) =
        [(1, 0, false), (2, 1, true)]) ∧
    ((ofRules belowClose).evaluateTick boundlessClose (.str "NONE")).1.result 1 = some false ∧
    ∃ issues, ((ofRules belowClose).evaluateTick boundlessClose (.str "NONE")).2 = .error (.invalid issues) ∧
      ∃ issue ∈ issues, issue.path = [.key "close_price"] := by
  refine ⟨?torn, ?failed, ?refused⟩
  case torn =>
    obtain ⟨hresults, -, -, hrecorded, -⟩ :=
      tick_contains_faults { selling := [atGainOrCrossing, .atGain 2 1] } [] tornGain .holding
    have hactive : RuleSet.active { selling := [atGainOrCrossing, .atGain 2 1] } .sell =
        [atGainOrCrossing, .atGain 2 1] := by
      simp [RuleSet.active, RuleSet.listed, byPriority, List.mergeSort, Rule.atGain, atGainOrCrossing]
    rw [PositionState.side, hactive] at hresults
    obtain ⟨torn, rest, ⟨hlabel, htorn, -⟩, hrest, hlog⟩ := List.forall₂_cons_left_iff.mp hresults
    obtain ⟨whole, rest', ⟨hlabel', hwhole, -⟩, hrest', rfl⟩ := List.forall₂_cons_left_iff.mp hrest
    obtain rfl := List.forall₂_nil_left_iff.mp hrest'
    obtain ⟨trace, htrace, hpassed⟩ := exists_ok_of_any
      (x := (Rule.atGain 2 1).tree.evaluate tornGain)
      (p := fun trace => trace.children.length = 1 ∧ trace.passed = true) (by decide +kernel)
    have hsound : ¬(Rule.atGain 2 1).tree.Faulty tornGain := by
      rw [← Group.fails_evaluate_iff, htrace]
      exact not_fails_ok trace
    have hfull := (hwhole.full hsound).1
    rw [htrace, Except.ok.injEq] at hfull
    subst hfull
    obtain ⟨hlength, hpassed⟩ := of_decide_eq_true hpassed
    have hnumber : torn.number = 1 := congrArg Prod.fst hlabel
    have hnumber' : whole.number = 2 := congrArg Prod.fst hlabel'
    obtain ⟨price, -, hmade⟩ := hrecorded ((Context.recordable_iff rfl).mpr fun field => by cases field <;> trivial)
    refine ⟨_, hmade, ?_⟩
    simp only [hlog, List.map_cons, List.map_nil, RuleResult.passed, hnumber, hnumber', hlength, hpassed,
      htorn.failed faulty_atGainOrCrossing, List.length_nil]
  case failed =>
    decide +kernel
  case refused =>
    obtain ⟨-, -, -, -, hrefused⟩ := tick_contains_faults belowClose [] boundlessClose .flat
    obtain ⟨issues, hissues, hpaths⟩ := hrefused not_recordable_boundlessClose
    exact ⟨issues, hissues, (hpaths _).mpr ⟨_, .closing, rfl, fun h => h floatOfInt?_boundless, rfl⟩⟩

end Engine

end TradingRules
