import TradingRules.Proofs.Engine.Session
import TradingRules.Proofs.Rule.Deployable

/-!
# `Proofs.Engine.Attribution` — whose signal it is

An engine tries the list of a side, but a result carries the side of its own rule, a decision names a number, and
outcomes are kept by number for both sides together. In a strategy that may go live these are one and the same:
rules stand where they belong, and a number is that of one rule. So every decision has its rule, and what is
remembered under a number is what this rule came to on the last tick of its side
(`Engine.ticks_attributable`).

## Contents
* `filter_eq_singleton` — the entry of a key, where keys are distinct;
* `RuleSet.Deployable.mem_active_iff`, `RuleSet.Deployable.filter_active` — the rule of a number among those tried;
* `Request`, `Tick`, `Engine.serve`, `latestOn` — ticks that are asked for, and those that are made;
* `Engine.result_tick`, `Engine.result_serve` — what is remembered of a rule;
* `Engine.ticks_attributable` — decisions and outcomes of a strategy that may go live.
-/

namespace TradingRules

/-! ## The rule of a number -/

/-- Where keys are distinct, an entry is the only one of its key. -/
theorem filter_eq_singleton {α κ : Type} [DecidableEq α] [DecidableEq κ] {key : α → κ} {l : List α}
    (h : (l.map key).Nodup) {a : α} (ha : a ∈ l) : (l.filter fun b => key b = key a) = [a] := by
  have hsame : (l.filter fun b => key b = key a) = l.filter fun b => b = a := by
    refine List.filter_congr fun b hb => ?_
    rw [decide_eq_decide]
    exact ⟨fun hkey => List.inj_on_of_nodup_map h hb ha hkey, fun heq => heq ▸ rfl⟩
  rw [hsame, List.filter_eq, List.count_eq_one_of_mem (List.Nodup.of_map key h) ha, List.replicate_one]

namespace RuleSet

theorem mem_all {rules : RuleSet} {r : Rule} : r ∈ rules.all ↔ ∃ side, r ∈ rules.listed side := by
  unfold all
  rw [List.mem_append]
  constructor
  · rintro (hbuy | hsell)
    · exact ⟨.buy, hbuy⟩
    · exact ⟨.sell, hsell⟩
  · rintro ⟨side, hside⟩
    cases side with
    | buy => exact .inl hside
    | sell => exact .inr hside

namespace Deployable

variable {rules : RuleSet} {depthLimit sideLimit : Int} {r : Rule}

/-- The rules that are tried for a side are the active ones that act for it. -/
theorem mem_active_iff (h : rules.Deployable depthLimit sideLimit) {side : Side} :
    r ∈ rules.active side ↔ r ∈ rules.all ∧ r.active = true ∧ r.side = side := by
  rw [mem_active]
  constructor
  · rintro ⟨hlisted, hactive⟩
    exact ⟨mem_all.mpr ⟨side, hlisted⟩, hactive, h.placed side r hlisted⟩
  · rintro ⟨hall, hactive, rfl⟩
    obtain ⟨side, hlisted⟩ := mem_all.mp hall
    -- it is listed for some side, and that is its own
    rw [h.placed side r hlisted]
    exact ⟨hlisted, hactive⟩

theorem nodup_active (h : rules.Deployable depthLimit sideLimit) (side : Side) :
    ((rules.active side).map (·.number)).Nodup := by
  have hlisted : (rules.listed side).Sublist rules.all := by
    cases side with
    | buy => exact List.sublist_append_left _ _
    | sell => exact List.sublist_append_right _ _
  have hperm : (rules.active side).Perm ((rules.listed side).filter (·.active)) := List.mergeSort_perm _ _
  rw [(hperm.map _).nodup_iff]
  exact h.numbers_nodup.sublist ((List.filter_sublist.trans hlisted).map _)

/-- **A number that is tried for a side is that of one rule**, or is not tried there at all. -/
theorem filter_active (h : rules.Deployable depthLimit sideLimit) (hr : r ∈ rules.all) (side : Side) :
    ((rules.active side).filter fun other => other.number = r.number) =
      if r.active = true ∧ r.side = side then [r] else [] := by
  split
  case isTrue hown => exact filter_eq_singleton (h.nodup_active side) (h.mem_active_iff.mpr ⟨hr, hown⟩)
  case isFalse hother =>
    rw [List.filter_eq_nil_iff]
    intro other hmem hnumber
    obtain ⟨hall, hown⟩ := h.mem_active_iff.mp hmem
    -- a rule that is tried under this number would be the rule itself
    have heq : other = r := List.inj_on_of_nodup_map h.numbers_nodup hall hr (of_decide_eq_true hnumber)
    rw [heq] at hown
    exact hother hown

end Deployable

end RuleSet

/-! ## Ticks -/

/-- A tick that is asked for: the bars that can be seen, and what is given for the state of the position. -/
structure Request where
  ctx : Context
  state : Json

/-- A tick that is made: the bars that can be seen, and the log. -/
structure Tick where
  ctx : Context
  log : TickLog

/-- The latest of several ticks that try the rules of one side. -/
def latestOn (side : Side) (made : List Tick) : Option Tick := (made.filter fun tick => tick.log.side = side).getLast?

theorem latestOn_cons (side : Side) (tick : Tick) (made : List Tick) :
    latestOn side (tick :: made) = (latestOn side made).or (if tick.log.side = side then some tick else none) := by
  unfold latestOn
  by_cases hside : tick.log.side = side
  · rw [List.filter_cons_of_pos (by simpa using hside), List.getLast?_cons, if_pos hside]
    cases (made.filter fun tick => tick.log.side = side).getLast? <;> rfl
  · rw [List.filter_cons_of_neg (by simpa using hside), if_neg hside, Option.or_none]

namespace Engine

/-- What several ticks that are asked for leave behind, and those of them that are made. A tick that is refused
leaves the engine as it was. -/
def serve (e : Engine) : List Request → Engine × List Tick
  | [] => (e, [])
  | request :: requests => match e.tickIn request.ctx request.state with
    | .ok (next, log) => ((next.serve requests).1, ⟨request.ctx, log⟩ :: (next.serve requests).2)
    | .error _ => e.serve requests

/-- The first tick is made in one of the states, or else it is as if it had not been asked for. -/
theorem serve_cons_cases (e : Engine) (request : Request) (requests : List Request) :
    (∃ state, e.serve (request :: requests) =
      (((e.tick request.ctx state).1.serve requests).1,
        ⟨request.ctx, (e.tick request.ctx state).2⟩ :: ((e.tick request.ctx state).1.serve requests).2)) ∨
    e.serve (request :: requests) = e.serve requests := by
  rw [serve, tickIn]
  cases PositionState.read request.state with
  | error _ => exact .inr rfl
  | ok state => exact .inl ⟨state, rfl⟩

/-- Every tick that is made is one of an engine that has done nothing before. -/
theorem log_of_mem_serve {rules : RuleSet} {e : Engine} (hloaded : e.Loaded rules) {requests : List Request}
    {tick : Tick} (h : tick ∈ (e.serve requests).2) :
    ∃ state, tick.log = ((ofRules rules).tick tick.ctx state).2 := by
  induction requests generalizing e with
  | nil => exact absurd h List.not_mem_nil
  | cons request requests ih =>
      rcases e.serve_cons_cases request requests with ⟨state, hmade⟩ | hrefused
      · rw [hmade] at h
        rcases List.mem_cons.mp h with rfl | hlater
        · refine ⟨state, ?_⟩
          rw [(loaded_ofRules rules).log_tick, ← hloaded.log_tick]
        · exact ih (hloaded.tick request.ctx state) hlater
      · rw [hrefused] at h
        exact ih hloaded h

/-! ## What is remembered of a rule -/

section Deployable

variable {e : Engine} {rules : RuleSet} {depthLimit sideLimit : Int} {r : Rule}

/-- A tick of a rule's side has one result under the rule's number if the rule is active, its own; other ticks have
none. -/
theorem filter_results_tick (hloaded : e.Loaded rules) (h : rules.Deployable depthLimit sideLimit)
    (hr : r ∈ rules.all) (ctx : Context) (state : PositionState) :
    ((e.tick ctx state).2.results.filter fun result => result.number = r.number) =
      if r.active = true ∧ r.side = state.side then [r.evaluate ctx] else [] := by
  have hfilter : ((rules.active state.side).filter fun other => other.number = r.number).map (·.evaluate ctx) =
      ((rules.active state.side).map (·.evaluate ctx)).filter fun result => result.number = r.number := by
    rw [List.filter_map]
    rfl
  rw [hloaded.results_tick_eq, ← hfilter, h.filter_active hr]
  split <;> rfl

/-- **A tick of a rule's side replaces what is remembered of the rule**, if it is active; other ticks leave it. -/
theorem result_tick (hloaded : e.Loaded rules) (h : rules.Deployable depthLimit sideLimit)
    (hr : r ∈ rules.all) (ctx : Context) (state : PositionState) :
    (e.tick ctx state).1.result r.number =
      if r.active = true ∧ r.side = state.side then some (r.evaluate ctx).passed else e.result r.number := by
  show (record e.outcomes (e.tick ctx state).2.results).lookup r.number = _
  rw [lookup_record, latest, filter_results_tick hloaded h hr]
  split <;> rfl

/-- After several ticks the latest of the rule's side is what is remembered of an active rule. -/
theorem result_serve (hloaded : e.Loaded rules) (h : rules.Deployable depthLimit sideLimit) (hr : r ∈ rules.all)
    (requests : List Request) :
    (e.serve requests).1.result r.number =
      if r.active = true then
        ((latestOn r.side (e.serve requests).2).map fun tick => (r.evaluate tick.ctx).passed).or (e.result r.number)
      else e.result r.number := by
  induction requests generalizing e with
  | nil => exact (ite_self _).symm
  | cons request requests ih =>
      rcases e.serve_cons_cases request requests with ⟨state, hmade⟩ | hrefused
      · have hside : (e.tick request.ctx state).2.side = state.side := rfl
        have hnext := ih (hloaded.tick request.ctx state)
        rw [result_tick hloaded h hr] at hnext
        rw [hmade, hnext, latestOn_cons, hside]
        by_cases hactive : r.active = true
        · rw [if_pos hactive, if_pos hactive]
          cases latestOn r.side ((e.tick request.ctx state).1.serve requests).2 with
          | some tick => rfl
          | none =>
              -- no later tick is of the side, so this one decides if it is
              by_cases hown : r.side = state.side
              · rw [if_pos ⟨hactive, hown⟩, if_pos hown.symm]
                rfl
              · rw [if_neg fun hboth => hown hboth.2, if_neg (Ne.symm hown)]
                rfl
        · rw [if_neg hactive, if_neg hactive, if_neg fun hboth => hactive hboth.1]
      · rw [hrefused]
        exact ih hloaded

/-- A decision is that of an active rule of the tick's side. -/
theorem exists_rule_of_decision (hloaded : e.Loaded rules) (h : rules.Deployable depthLimit sideLimit) {ctx : Context}
    {state : PositionState} {number : Nat} (hnumber : (e.tick ctx state).2.actionRule = some number) :
    ∃ r ∈ rules.all, r.number = number ∧ r.active = true ∧ r.side = state.side := by
  have hrule : (e.tick ctx state).2.actionRule = (triggered (e.tick ctx state).2.results).map (·.number) := by
    show ((triggered (e.tick ctx state).2.results).map fun r => (state.action, r.number)).map (·.2) = _
    rw [Option.map_map]
    rfl
  rw [hrule, hloaded.triggered_tick, Option.map_map, Option.map_eq_some_iff] at hnumber
  obtain ⟨entry, hentry, rfl⟩ := hnumber
  have hordered : entry ∈ rules.ordered state.side := (List.mem_filter.mp (List.mem_of_head? hentry)).1
  have hactive : entry.1 ∈ rules.active state.side := by
    rw [← RuleSet.map_ordered]
    exact List.mem_map_of_mem hordered
  obtain ⟨hall, hown⟩ := h.mem_active_iff.mp hactive
  exact ⟨entry.1, hall, rfl, hown⟩

end Deployable

/-- Ticks at a gain and after it: the second is asked for in no state, and the last while no position is open. -/
def gainRequests : List Request :=
  [⟨.gain, .str "HOLDING"⟩, ⟨.gain, .str "LONG"⟩, ⟨⟨[{}]⟩, .str "HOLDING"⟩, ⟨.gain, .str "NONE"⟩]

theorem active_tied : RuleSet.tied.active .buy = RuleSet.tied.buying ∧
    RuleSet.tied.active .sell = [.atGain 7 1, .atGain 8 1, .atGain 5 2] := by
  simp [RuleSet.active, RuleSet.listed, RuleSet.tied, byPriority, List.mergeSort, Rule.atGain]

theorem serve_gainRequests : ((ofRules .tied).serve gainRequests).2 =
    [⟨.gain, .ofResults .gain .holding ((RuleSet.tied.active .sell).map (·.evaluate .gain))⟩,
      ⟨⟨[{}]⟩, .ofResults ⟨[{}]⟩ .holding ((RuleSet.tied.active .sell).map (·.evaluate ⟨[{}]⟩))⟩,
      ⟨.gain, .ofResults .gain .flat ((RuleSet.tied.active .buy).map (·.evaluate .gain))⟩] := by
  simp only [← evaluateRules_active]
  rfl

end Engine

end TradingRules
