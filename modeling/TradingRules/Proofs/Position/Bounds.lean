import Mathlib.Algebra.Field.Rat
import Mathlib.Algebra.Order.Field.Basic
import Mathlib.Algebra.Order.Ring.Rat
import Mathlib.Data.List.Induction
import Mathlib.Order.Bounds.Basic
import Mathlib.Tactic.Positivity
import TradingRules.Proofs.Position.Observation

/-!
# `Proofs.Position.Bounds` — between which bounds metrics lie

A tracker is entered, looked at and left in any order, and a look is not without effect: it counts a close for the
best one. What is true of the prices at each moment is that they are those of the latest entry, that this was above
zero, and that the best close is the greatest of it and of all that the tracker was shown since (`Tracker.Knows`).
Every call preserves this. In the arithmetic of fractions it bounds the metrics: nothing is better than the best, and
nothing is divided by zero.

## Contents
* `Tracker.Call`, `Tracker.after` — what is done with a tracker, and the tracker after it;
* `Tracker.LastEntry`, `Tracker.closes` — the latest entry, and the closes since;
* `Tracker.Knows`, `Tracker.knows_call`, `Tracker.knows_after` — the invariant;
* `Tracker.one_add_percent`, `Tracker.percent_le_percent` — changes as ratios;
* `Tracker.metrics_bounded` — the metrics after any calls.
-/

namespace TradingRules

open Fallible

namespace Tracker

/-! ## Calls -/

/-- What is done with a tracker. -/
inductive Call where
  | enter (price : Option ℚ) (time : Option Timestamp)
  | leave
  /-- The metrics are asked for at a close. -/
  | look (close : Option ℚ) (time : Option Timestamp)

/-- The metrics are asked for. -/
def Call.isLook : Call → Bool
  | .look _ _ => true
  | _ => false

/-- The close that a tracker is shown. -/
def Call.close? : Call → Option ℚ
  | .look close _ => close
  | _ => none

/-- The tracker after a call. -/
def call (t : Tracker ℚ) : Call → Tracker ℚ
  | .enter price time => t.enter price time
  | .leave => t.leave
  | .look close time => (t.observe close time).1

/-- The tracker after several calls, the first of which finds it flat. -/
def after (calls : List Call) : Tracker ℚ := calls.foldl call flat

/-- The closes that a tracker is shown. -/
def closes (calls : List Call) : List ℚ := calls.filterMap Call.close?

/-- The latest entry of several calls was at a price and at a time, and the tracker was only looked at since. -/
structure LastEntry (calls looks : List Call) (price : ℚ) (time : Option Timestamp) : Prop where
  eq_append : ∃ before, calls = before ++ .enter (some price) time :: looks
  isLook : ∀ look ∈ looks, look.isLook = true

theorem LastEntry.append_look {calls looks : List Call} {price : ℚ} {entered : Option Timestamp}
    (h : LastEntry calls looks price entered) (close : Option ℚ) (time : Option Timestamp) :
    LastEntry (calls ++ [.look close time]) (looks ++ [.look close time]) price entered := by
  obtain ⟨⟨before, rfl⟩, hlooks⟩ := h
  refine ⟨⟨before, by rw [List.append_assoc, List.cons_append]⟩, ?_⟩
  intro look hlook
  rcases List.mem_append.mp hlook with hold | hnew
  · exact hlooks look hold
  · rw [List.mem_singleton.mp hnew]
    rfl

/-! ## What a tracker knows -/

/-- If a position is open after several calls, its prices are those of the latest entry, which was above zero, and the
best close is the greatest of it and of those since. -/
def Knows (calls : List Call) (t : Tracker ℚ) : Prop :=
  ∀ holding, t.holding = some holding → ∃ looks prices, holding.prices = some prices ∧
    LastEntry calls looks prices.entry holding.since ∧ 0 < prices.entry ∧
    IsGreatest {x | x ∈ prices.entry :: closes looks} prices.best

/-- One more close is the greatest if it is greater than the greatest so far. -/
theorem isGreatest_append_close {xs : List ℚ} {best : ℚ} (h : IsGreatest {x | x ∈ xs} best) (close : ℚ) :
    IsGreatest {x | x ∈ xs ++ [close]} (if best < close then close else best) := by
  have hset : {x | x ∈ xs ++ [close]} = insert close {x | x ∈ xs} := by
    ext x
    simp [or_comm]
  rw [hset, ← max_def_lt, max_comm]
  exact h.insert close

theorem closes_append_look (looks : List Call) (close : Option ℚ) (time : Option Timestamp) :
    closes (looks ++ [.look close time]) = closes looks ++ close.toList := by
  unfold closes
  rw [List.filterMap_append]
  cases close <;> rfl

section Look

variable {calls : List Call} {t : Tracker ℚ} {holding : Holding ℚ}

/-- **What a look at an open position does**: the close is counted for the best one, and then metrics are measured. -/
theorem Knows.observe (h : Knows calls t) (hholding : t.holding = some holding) (close : ℚ) (time : Option Timestamp) :
    ∃ looks prices, LastEntry calls looks prices.entry holding.since ∧ 0 < prices.entry ∧
      IsGreatest {x | x ∈ prices.entry :: (closes looks ++ [close])} prices.best ∧
      t.observe (some close) time = (⟨some ⟨holding.since, some prices⟩⟩,
        (timeHeld time holding.since).bind fun held => (measure prices close held).map some) := by
  obtain ⟨looks, prices, hprices, hlast, hentry, hbest⟩ := h holding hholding
  have hmeasures : t.Measures (some close) holding.since prices close := by
    refine ⟨?_, rfl, beq_eq_false_iff_ne.mpr hentry.ne'⟩
    rw [hholding, ← hprices]
  refine ⟨looks, advance prices close, ?_, ?_, ?_, observe_of_measures hmeasures⟩
  · rw [entry_advance]
    exact hlast
  · rw [entry_advance]
    exact hentry
  · rw [entry_advance, best_advance, ← List.cons_append]
    exact isGreatest_append_close hbest close

/-- A look without a close, or while no position is open, is without effect. -/
theorem observe_of_none {close : Option ℚ} (h : t.holding = none ∨ close = none) (time : Option Timestamp) :
    t.observe close time = (t, .ok none) := by
  refine observe_of_skips ?_
  rcases h with hflat | hclose
  · exact skips_of_holding_eq_none hflat
  · exact fun _ _ _ _ => .inl hclose

theorem knows_look (h : Knows calls t) (close : Option ℚ) (time : Option Timestamp) :
    Knows (calls ++ [.look close time]) (t.observe close time).1 := by
  intro later hlater
  cases hholding : t.holding with
  | none =>
      rw [observe_of_none (.inl hholding), hholding] at hlater
      cases hlater
  | some holding =>
      cases close with
      | none =>
          rw [observe_of_none (.inr rfl)] at hlater
          obtain ⟨looks, prices, hprices, hlast, hentry, hbest⟩ := h later hlater
          refine ⟨_, prices, hprices, hlast.append_look none time, hentry, ?_⟩
          rw [closes_append_look, Option.toList_none, List.append_nil]
          exact hbest
      | some close =>
          obtain ⟨looks, prices, hlast, hentry, hbest, hobserve⟩ := h.observe hholding close time
          rw [hobserve] at hlater
          cases hlater
          refine ⟨_, prices, rfl, hlast.append_look (some close) time, hentry, ?_⟩
          rw [closes_append_look]
          exact hbest

end Look

/-- An entry above zero is remembered in place of whatever was. -/
theorem knows_enter (calls : List Call) (t : Tracker ℚ) {price : ℚ} (hprice : 0 < price) (time : Option Timestamp) :
    Knows (calls ++ [.enter (some price) time]) (t.enter (some price) time) := by
  rintro _ ⟨⟩
  refine ⟨[], ⟨price, price⟩, rfl, ⟨⟨calls, rfl⟩, List.forall_mem_nil _⟩, hprice, ?_⟩
  simp [closes]

/-- The calls enter at known prices above zero. -/
def EntersAboveZero (calls : List Call) : Prop :=
  ∀ price time, Call.enter price time ∈ calls → ∃ p, price = some p ∧ 0 < p

/-- **Every call preserves what a tracker knows.** -/
theorem knows_call {calls : List Call} {t : Tracker ℚ} (h : Knows calls t) {c : Call} (hc : EntersAboveZero [c]) :
    Knows (calls ++ [c]) (t.call c) := by
  cases c with
  | enter price time =>
      obtain ⟨p, rfl, hp⟩ := hc price time (List.mem_singleton_self _)
      exact knows_enter calls t hp time
  | leave => exact nofun
  | look close time => exact knows_look h close time

/-- **What a tracker knows after any calls.** -/
theorem knows_after {calls : List Call} (h : EntersAboveZero calls) : Knows calls (after calls) := by
  induction calls using List.reverseRecOn with
  | nil => exact nofun
  | append_singleton calls c ih =>
      have hcalls : EntersAboveZero calls := fun price time hmem => h price time (List.mem_append_left _ hmem)
      have hc : EntersAboveZero [c] := fun price time hmem => h price time (List.mem_append_right _ hmem)
      unfold after
      rw [List.foldl_concat]
      exact knows_call (ih hcalls) hc

/-! ## Changes -/

section Percent

variable {first a b : ℚ}

/-- A change makes a price the other one. -/
theorem one_add_percent (h : first ≠ 0) (later : ℚ) : 1 + percent first later / 100 = later / first := by
  unfold percent
  rw [mul_div_assoc, div_self (by norm_num), mul_one, sub_div, div_self h, add_sub_cancel]

theorem percent_le_percent (h : 0 < first) (hab : a ≤ b) : percent first a ≤ percent first b := by
  unfold percent
  gcongr

theorem percent_self (a : ℚ) : percent a a = 0 := by
  unfold percent
  rw [sub_self, zero_div, zero_mul]

end Percent

/-- **The bounds of the metrics** at a close that is no better than the best one, after an entry above zero. -/
theorem measure_bounded {prices : Prices ℚ} {close : ℚ} (hentry : 0 < prices.entry) (hbest : prices.entry ≤ prices.best)
    (hclose : close ≤ prices.best) (held : Option Int) :
    ∃ m, measure prices close held = .ok m ∧ 0 ≤ m.bestChange ∧ m.change ≤ m.bestChange ∧ m.trailing ≤ 0 ∧
      1 + m.change / 100 = (1 + m.bestChange / 100) * (1 + m.trailing / 100) := by
  have hpos : 0 < prices.best := hentry.trans_le hbest
  refine ⟨_, measure_eq_ok.mpr ⟨beq_eq_false_iff_ne.mpr hpos.ne', rfl⟩, ?_, percent_le_percent hentry hclose, ?_, ?_⟩
  · rw [← percent_self prices.entry]
    exact percent_le_percent hentry hbest
  · rw [← percent_self prices.best]
    exact percent_le_percent hpos hclose
  · show 1 + percent prices.entry close / 100 =
      (1 + percent prices.entry prices.best / 100) * (1 + percent prices.best close / 100)
    rw [one_add_percent hentry.ne', one_add_percent hentry.ne', one_add_percent hpos.ne', mul_comm,
      div_mul_div_cancel₀ hpos.ne']

/-! ## Metrics after any calls -/

/-- Of two times that are known either both have an offset or neither has one. -/
def SameClock (time since : Option Timestamp) : Prop :=
  ∀ later earlier, time = some later → since = some earlier → later.offset.isSome = earlier.offset.isSome

theorem timeHeld_of_not_sameClock {time since : Option Timestamp} (h : ¬SameClock time since) :
    timeHeld time since = .error .incomparableTimes := by
  unfold SameClock at h
  push Not at h
  obtain ⟨later, earlier, rfl, rfl, hoffset⟩ := h
  unfold timeHeld Timestamp.since?
  simp only [if_neg hoffset]

/-- **The bounds of metrics.** After any calls of which every entry is at a price above zero, a look at an open position
with a close leaves as the best close the greatest of the price of the latest entry, the closes that the tracker was
shown since, and this one. It gives metrics, unless only one of its time and that of the entry has an offset. The best
change is not negative, the change is no better than the best, nothing is above the best close, and the change is the
best change and the distance from the best close taken together. A look without a close, or while no position is open,
gives no metrics and changes nothing. -/
theorem metrics_bounded {calls : List Call} (hentries : EntersAboveZero calls) (close : Option ℚ)
    (time : Option Timestamp) :
    ((after calls).holding = none ∨ close = none → (after calls).observe close time = (after calls, .ok none)) ∧
    ∀ holding c, (after calls).holding = some holding → close = some c →
      ∃ looks prices, LastEntry calls looks prices.entry holding.since ∧
        ((after calls).observe close time).1 = ⟨some ⟨holding.since, some prices⟩⟩ ∧
        IsGreatest {x | x ∈ prices.entry :: (closes looks ++ [c])} prices.best ∧
        (SameClock time holding.since → ∃ m, ((after calls).observe close time).2 = .ok (some m) ∧
          0 ≤ m.bestChange ∧ m.change ≤ m.bestChange ∧ m.trailing ≤ 0 ∧
          1 + m.change / 100 = (1 + m.bestChange / 100) * (1 + m.trailing / 100)) ∧
        (¬SameClock time holding.since → ((after calls).observe close time).2 = .error .incomparableTimes) := by
  refine ⟨fun h => observe_of_none h time, ?_⟩
  rintro holding c hholding rfl
  obtain ⟨looks, prices, hlast, hentry, hbest, hobserve⟩ := (knows_after hentries).observe hholding c time
  rw [hobserve]
  refine ⟨looks, prices, hlast, rfl, hbest, ?_, ?_⟩
  · intro hclock
    obtain ⟨held, hheld⟩ := exists_timeHeld hclock
    have hclose : c ≤ prices.best :=
      hbest.2 (List.mem_cons_of_mem _ (List.mem_append_right _ (List.mem_singleton_self c)))
    obtain ⟨m, hm, hbounds⟩ := measure_bounded hentry (hbest.2 List.mem_cons_self) hclose held
    exact ⟨m, bind_eq_ok.mpr ⟨held, hheld, map_eq_ok.mpr ⟨m, hm, rfl⟩⟩, hbounds⟩
  · intro hclock
    exact bind_eq_error.mpr (.inl (timeHeld_of_not_sameClock hclock))

/-- A position that rose to four hundred, and after it another one that was entered lower. -/
def reentered : List Call :=
  [.enter (some 300) none, .look (some 400) none, .leave, .enter (some 100) none, .look (some 120) none, .look none none]

/-- At a close of ninety the best one is that of the second position. -/
theorem metrics_bounded_reentered :
    ((after reentered).observe (some 90) none).1.prices = some ⟨100, 120⟩ ∧
      ∃ m, ((after reentered).observe (some 90) none).2 = .ok (some m) ∧ 0 ≤ m.bestChange ∧
        m.change ≤ m.bestChange ∧ m.trailing ≤ 0 ∧
        1 + m.change / 100 = (1 + m.bestChange / 100) * (1 + m.trailing / 100) := by
  have hentries : EntersAboveZero reentered := by
    intro price time hmem
    simp only [reentered, List.mem_cons, Call.enter.injEq, List.not_mem_nil, reduceCtorEq, or_false, false_or] at hmem
    rcases hmem with ⟨rfl, -⟩ | ⟨rfl, -⟩
    · exact ⟨300, rfl, by norm_num⟩
    · exact ⟨100, rfl, by norm_num⟩
  obtain ⟨-, hheld⟩ := metrics_bounded hentries (some 90) none
  obtain ⟨looks, prices, -, -, -, hmetrics, -⟩ := hheld ⟨none, some ⟨100, 120⟩⟩ 90 (by decide +kernel) rfl
  exact ⟨by decide +kernel, hmetrics nofun⟩

/-- Half past nine on some day, without an offset. -/
def morning : Timestamp := { year := 2024, month := 1, day := 2, hour := 9, minute := 30 }

/-- A look at an open position does not always give metrics, even if the times are known. -/
theorem not_always_measured :
    ¬∀ (calls : List Call) (close : ℚ) (time : Option Timestamp), EntersAboveZero calls →
      (after calls).holding ≠ none → ∃ m, ((after calls).observe (some close) time).2 = .ok (some m) := by
  intro halways
  have hentries : EntersAboveZero [.enter (some 100) (some morning)] := by
    intro price time hmem
    cases List.mem_singleton.mp hmem
    exact ⟨100, rfl, by norm_num⟩
  obtain ⟨m, hm⟩ := halways [.enter (some 100) (some morning)] 110
    (some { morning with hour := 10, minute := 0, offset := some 0 }) hentries nofun
  cases hm

end Tracker

end TradingRules
