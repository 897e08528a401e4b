import Mathlib.Data.List.DropRight
import TradingRules.Proofs.Engine.Recorded
import TradingRules.Proofs.Engine.Selection

/-!
# `Proofs.Engine.Session` — engines in use

An engine is asked for ticks, for the rules of one side, and to load other rules, in any order. What it keeps
between two calls is its rules with the list it tries for each side, and one outcome for each rule number; the same
number may stand for several rules, of both sides and within one side. After any calls the rules are those last
loaded, and so are the lists (`Engine.loaded_after`); the outcomes are those of the results given since then, each
put in place of an earlier one of its number (`Engine.outcomes_after`). So the next tick is that of a new engine,
and the outcome of a number is the latest.

## Contents
* `Call`, `Engine.perform`, `Engine.after`, `Engine.transcript` — calls, and what an engine answers;
* `given`, `latest` — the results since rules were loaded, and the latest of a rule number;
* `Engine.lookup_record`, `Engine.record_nil_spec` — outcomes of several results;
* `Engine.perform_cases` — what one call can do;
* `Engine.Loaded.perform`, `Engine.outcomes_perform` — what it does to the lists and to the outcomes;
* `Engine.loaded_after`, `Engine.outcomes_after` — what an engine keeps;
* `Engine.after_spec` — what an engine in use answers.
-/

namespace TradingRules

/-! ## Calls -/

/-- What may be asked of an engine. -/
inductive Call where
  /-- A tick in the state that a value names. -/
  | tick (ctx : Context) (state : Json)
  /-- The rules that a name asks for. -/
  | evaluate (ctx : Context) (side : String)
  /-- Other rules. -/
  | reload (rules : RuleSet)

/-- The rules that a call loads. -/
def Call.loads? : Call → Option RuleSet
  | .reload rules => some rules
  | _ => none

/-- The rules in place after several calls: those last loaded. -/
def loaded (rules : RuleSet) (calls : List Call) : RuleSet := (calls.filterMap Call.loads?).getLast?.getD rules

namespace Engine

/-- The results of a tick, whether it goes on record or not. One that is refused has none. -/
def tickResults (e : Engine) (ctx : Context) (state : Json) : List RuleResult :=
  match e.tickIn ctx state with
  | .ok (_, log) => log.results
  | .error _ => []

/-- What a call leaves behind, and the results it gives. -/
def perform (e : Engine) : Call → Engine × List RuleResult
  | .tick ctx state => ((e.evaluateTick ctx state).1, e.tickResults ctx state)
  | .evaluate ctx side => e.evaluateSide (.requested side) ctx
  | .reload rules => (e.reload rules, [])

/-- What several calls leave behind. -/
def after (e : Engine) (calls : List Call) : Engine := calls.foldl (fun e c => (e.perform c).1) e

/-- Several calls, each with the results it gives. -/
def transcript (e : Engine) : List Call → List (Call × List RuleResult)
  | [] => []
  | c :: calls => (c, (e.perform c).2) :: (e.perform c).1.transcript calls

end Engine

/-- The results in a transcript since rules were last loaded, in the order in which they were given. -/
def given (entries : List (Call × List RuleResult)) : List RuleResult :=
  (entries.rtakeWhile fun entry => entry.1.loads?.isNone).flatMap Prod.snd

/-- The latest of several results of one rule number. -/
def latest (number : Nat) (results : List RuleResult) : Option RuleResult :=
  (results.filter fun r => r.number = number).getLast?

/-! ## The last of several -/

theorem loaded_concat (rules : RuleSet) (calls : List Call) (c : Call) :
    loaded rules (calls ++ [c]) = c.loads?.getD (loaded rules calls) := by
  unfold loaded
  rw [List.filterMap_append]
  cases hloads : c.loads? with
  | none => simp [hloads]
  | some other => simp [hloads]

theorem given_concat (entries : List (Call × List RuleResult)) (c : Call) (results : List RuleResult) :
    given (entries ++ [(c, results)]) = if c.loads?.isNone then given entries ++ results else [] := by
  unfold given
  rw [List.rtakeWhile_concat]
  by_cases hloads : c.loads?.isNone
  · simp [hloads]
  · simp [hloads]

theorem latest_concat (number : Nat) (results : List RuleResult) (r : RuleResult) :
    latest number (results ++ [r]) = if r.number = number then some r else latest number results := by
  unfold latest
  by_cases hnumber : r.number = number
  · simp [hnumber]
  · simp [hnumber]

namespace Engine

/-! ## Outcomes of several results -/

theorem record_append (outcomes : List (Nat × Bool)) (earlier later : List RuleResult) :
    record outcomes (earlier ++ later) = record (record outcomes earlier) later := List.foldl_append ..

theorem record_concat (outcomes : List (Nat × Bool)) (results : List RuleResult) (r : RuleResult) :
    record outcomes (results ++ [r]) = Assoc.insert (record outcomes results) r.number r.passed := by
  rw [record_append]
  rfl

/-- Recording results puts the latest of a number in place of what was kept of it. -/
theorem lookup_record (outcomes : List (Nat × Bool)) (results : List RuleResult) (number : Nat) :
    (record outcomes results).lookup number =
      ((latest number results).map (·.passed)).or (outcomes.lookup number) := by
  induction results using List.reverseRecOn with
  | nil => rfl
  | append_singleton results r ih =>
      rw [record_concat, latest_concat]
      by_cases hnumber : r.number = number
      · rw [if_pos hnumber, ← hnumber, Assoc.lookup_insert_self]
        rfl
      · rw [if_neg hnumber, Assoc.lookup_insert_of_ne (Ne.symm hnumber), ih]

/-- Recorded from nothing, results leave one outcome for each of their numbers, that of the latest. -/
theorem record_nil_spec (results : List RuleResult) :
    ((record [] results).map Prod.fst).Nodup ∧
      ∀ number, (record [] results).lookup number = (latest number results).map (·.passed) := by
  constructor
  · induction results using List.reverseRecOn with
    | nil => exact List.nodup_nil
    | append_singleton results r ih =>
        rw [record_concat]
        exact Assoc.nodup_keys_insert ih _ _
  · intro number
    rw [lookup_record, List.lookup_nil, Option.or_none]

/-! ## One call -/

/-- **What one call can do**: load other rules, be refused, or evaluate the rules of one side. -/
theorem perform_cases (e : Engine) (c : Call) :
    (∃ rules, c.loads? = some rules ∧ e.perform c = (e.reload rules, [])) ∨
      c.loads? = none ∧ (e.perform c = (e, []) ∨ ∃ side ctx, e.perform c = e.evaluateSide side ctx) := by
  cases c with
  | tick ctx state =>
      refine .inr ⟨rfl, ?_⟩
      simp only [perform, evaluateTick, tickResults, tickIn]
      cases PositionState.read state with
      | error _ => exact .inl rfl
      | ok state => exact .inr ⟨state.side, ctx, rfl⟩
  | evaluate ctx side => exact .inr ⟨rfl, .inr ⟨.requested side, ctx, rfl⟩⟩
  | reload rules => exact .inl ⟨rules, rfl, rfl⟩

/-- **The lists stay those of the rules in place**, which are the ones that a call loads if it loads any. -/
theorem Loaded.perform {e : Engine} {rules : RuleSet} (h : e.Loaded rules) (c : Call) :
    (e.perform c).1.Loaded (c.loads?.getD rules) := by
  rcases e.perform_cases c with ⟨other, hloads, hperform⟩ | ⟨hloads, hperform | ⟨side, ctx, hperform⟩⟩
  · rw [hloads, hperform]
    exact loaded_reload e other
  · rw [hloads, hperform]
    exact h
  · rw [hloads, hperform]
    exact h.evaluateSide side ctx

/-- A call that loads rules forgets the outcomes, and any other adds its results to them. -/
theorem outcomes_perform (e : Engine) (c : Call) :
    (e.perform c).1.outcomes = if c.loads?.isNone then record e.outcomes (e.perform c).2 else [] := by
  rcases e.perform_cases c with ⟨rules, hloads, h⟩ | ⟨hloads, h | ⟨side, ctx, h⟩⟩
  · rw [hloads, h]
    rfl
  · rw [hloads, h]
    rfl
  · rw [hloads, h]
    rfl

/-- The results of one call stand in the order of their priorities. -/
theorem pairwise_perform (e : Engine) (c : Call) :
    (e.perform c).2.Pairwise fun a b => a.priority ≤ b.priority := by
  rcases e.perform_cases c with ⟨rules, -, h⟩ | ⟨-, h | ⟨side, ctx, h⟩⟩
  · rw [h]
    exact List.Pairwise.nil
  · rw [h]
    exact List.Pairwise.nil
  · rw [h]
    show (evaluateRules (e.active side) ctx).Pairwise fun a b => a.priority ≤ b.priority
    unfold evaluateRules
    refine List.pairwise_map.mpr ((pairwise_byPriority _).imp ?_)
    intro a b hab
    exact of_decide_eq_true hab

/-! ## Several calls -/

theorem after_append (e : Engine) (earlier later : List Call) :
    e.after (earlier ++ later) = (e.after earlier).after later := List.foldl_append ..

theorem after_concat (e : Engine) (calls : List Call) (c : Call) :
    e.after (calls ++ [c]) = ((e.after calls).perform c).1 := by
  rw [after_append]
  rfl

theorem transcript_concat (e : Engine) (calls : List Call) (c : Call) :
    e.transcript (calls ++ [c]) = e.transcript calls ++ [(c, ((e.after calls).perform c).2)] := by
  induction calls generalizing e with
  | nil => rfl
  | cons first calls ih =>
      rw [List.cons_append, transcript, transcript, ih, List.cons_append]
      rfl

theorem pairwise_transcript (e : Engine) (calls : List Call) :
    ∀ entry ∈ e.transcript calls, entry.2.Pairwise fun a b => a.priority ≤ b.priority := by
  induction calls generalizing e with
  | nil =>
      intro entry hentry
      cases hentry
  | cons c calls ih =>
      rw [transcript]
      exact List.forall_mem_cons.mpr ⟨e.pairwise_perform c, ih (e.perform c).1⟩

/-- **After any calls the lists are those of the rules last loaded.** -/
theorem loaded_after (rules : RuleSet) (calls : List Call) :
    ((ofRules rules).after calls).Loaded (loaded rules calls) := by
  induction calls using List.reverseRecOn with
  | nil => exact loaded_ofRules rules
  | append_singleton calls c ih =>
      rw [after_concat, loaded_concat]
      exact ih.perform c

/-- **After any calls the outcomes are those of the results given** since rules were last loaded. -/
theorem outcomes_after (rules : RuleSet) (calls : List Call) :
    ((ofRules rules).after calls).outcomes = record [] (given ((ofRules rules).transcript calls)) := by
  induction calls using List.reverseRecOn with
  | nil => rfl
  | append_singleton calls c ih =>
      rw [after_concat, outcomes_perform, transcript_concat, given_concat]
      split
      · rw [record_append, ih]
      · rfl

/-- **An engine in use answers as a new one would, and remembers the latest.** After any calls the rules in place
are those last loaded, and the list of each side holds the active ones of them, in order. So a tick in a named
state makes the log that a new engine with these rules makes, and comes to the same record or the same issues. The
outcome of a rule number is that of the latest result with the number among all that were given since the rules
were loaded, where those of one call come in the order of their priorities; there is none if there is no such
result, and the engine keeps nothing else. A tick in anything but a named state is refused, and what follows is as
if it had not been asked for. -/
theorem after_spec (rules : RuleSet) (calls : List Call) :
    let e := (ofRules rules).after calls
    let entries := (ofRules rules).transcript calls
    ((e.rules = loaded rules calls ∧ ∀ side, e.active side = (loaded rules calls).active side) ∧
      ∀ ctx (state : PositionState),
        (e.tickIn ctx (.str state.name)).map Prod.snd = .ok ((ofRules (loaded rules calls)).tick ctx state).2 ∧
        (e.evaluateTick ctx (.str state.name)).2 =
          ((ofRules (loaded rules calls)).evaluateTick ctx (.str state.name)).2) ∧
    ((∀ number, e.result number = (latest number (given entries)).map (·.passed)) ∧
      (∀ entry ∈ entries, entry.2.Pairwise fun a b => a.priority ≤ b.priority) ∧
      (e.outcomes.map Prod.fst).Nodup ∧
      ∀ number passed, (number, passed) ∈ e.outcomes ↔ e.result number = some passed) ∧
    ∀ ctx value, (∀ state : PositionState, value ≠ .str state.name) →
      e.evaluateTick ctx value = (e, .error (.unknownState ⟨value⟩)) ∧
      ∀ later, (ofRules rules).after (calls ++ .tick ctx value :: later) = (ofRules rules).after (calls ++ later) := by
  intro e entries
  have hloaded : e.Loaded (loaded rules calls) := loaded_after rules calls
  have hkept : e.outcomes = record [] (given entries) := outcomes_after rules calls
  obtain ⟨hkeys, hlookup⟩ := record_nil_spec (given entries)
  refine ⟨⟨⟨hloaded.inPlace, hloaded.active⟩, ?log⟩, ⟨?result, ?priorities, ?numbers, ?outcomes⟩, ?refused⟩
  case log =>
    intro ctx state
    -- both engines have their lists from the same rules
    have hsame : (e.tick ctx state).2 = ((ofRules (loaded rules calls)).tick ctx state).2 := by
      rw [hloaded.log_tick, (loaded_ofRules _).log_tick]
    constructor
    · rw [tickIn_name, ← hsame]
      rfl
    · rw [evaluateTick_name, evaluateTick_name, hsame]
  case result =>
    intro number
    unfold result
    rw [hkept]
    exact hlookup number
  case priorities => exact pairwise_transcript (ofRules rules) calls
  case numbers =>
    rw [hkept]
    exact hkeys
  case outcomes =>
    intro number passed
    unfold result
    rw [hkept]
    exact (Assoc.lookup_eq_some_iff_mem hkeys).symm
  case refused =>
    intro ctx value hvalue
    refine ⟨e.evaluateTick_of_ne ctx hvalue, ?_⟩
    intro later
    have hsame : (e.perform (.tick ctx value)).1 = e := by
      rw [perform, e.evaluateTick_of_ne ctx hvalue]
    rw [after_append, after_append]
    show (e.perform (.tick ctx value)).1.after later = e.after later
    rw [hsame]

/-- Rules that share one number: a buying rule, and two selling rules of which the later by priority never
passes. -/
def namesakes : RuleSet where
  buying := [{ Rule.atGain 7 0 with side := .buy }]
  selling := [{ number := 7, side := .sell, priority := 2 }, .atGain 7 1]

/-- Calls to an engine: other rules are loaded after its first tick, and one of the later ticks is refused. -/
def trialCalls : List Call :=
  [.tick .gain (.str "HOLDING"), .reload namesakes, .evaluate .gain "BUY", .tick .gain (.str "LONG"),
    .tick .gain (.str "HOLDING")]

theorem active_namesakes : namesakes.active .sell = namesakes.selling.reverse := by
  simp [RuleSet.active, RuleSet.listed, namesakes, byPriority, List.mergeSort, Rule.atGain]

theorem given_trialCalls : given ((ofRules .tied).transcript trialCalls) =
    evaluateRules (namesakes.active .buy) .gain ++ (namesakes.selling.reverse).map (·.evaluate .gain) := by
  rw [← active_namesakes, ← evaluateRules_active, ← List.append_nil (evaluateRules (namesakes.active .sell) .gain)]
  rfl

/-- The selling rules that are tried are those of the rules loaded on the way, in order. Of two with one number the
later by priority is remembered, though the earlier one passed and so did the buying rule of that number; what an
earlier tick found is forgotten once other rules are loaded. -/
theorem after_spec_namesakes :
    ((ofRules .tied).after trialCalls).active .sell = namesakes.selling.reverse ∧
    ((ofRules .tied).after trialCalls).result 7 = some false ∧
    ((ofRules .tied).after trialCalls).result 8 = none ∧
    (((ofRules .tied).after trialCalls).tickIn .gain (.str "NONE")).map Prod.snd =
      .ok ((ofRules namesakes).tick .gain .flat).2 ∧
    (((ofRules .tied).after trialCalls).evaluateTick .gain (.str "LONG")).2 =
      .error (.unknownState ⟨.str "LONG"⟩) := by
  obtain ⟨⟨⟨-, hactive⟩, hlog⟩, ⟨hresult, -⟩, hrefused⟩ := after_spec .tied trialCalls
  rw [given_trialCalls] at hresult
  refine ⟨(hactive .sell).trans active_namesakes, (hresult 7).trans ?_, (hresult 8).trans ?_,
    (hlog .gain .flat).1, congrArg Prod.snd (hrefused .gain (.str "LONG") ?_).1⟩
  · decide +kernel
  · decide +kernel
  · intro state
    cases state <;> simp [PositionState.name]

end Engine

end TradingRules
