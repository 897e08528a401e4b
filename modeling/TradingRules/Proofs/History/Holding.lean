import TradingRules.Proofs.History.Course
import TradingRules.Proofs.Market.Order
import TradingRules.Proofs.Position.Observation

/-!
# `Proofs.History.Holding` — what a position remembers

The tracker of a replay keeps two prices and a time, and overwrites them as it goes. Whatever the bars were,
they are those of the latest entry: its time, its close, and the best close since. This is the invariant that
ties the tracker to the bars and logs so far (`Tracks`); every step preserves it, and every course has it.

## Contents
* `EnteredAt` — the latest entry, if the position is still open;
* `Holding.Spans` — a position and the bars since its entry;
* `SeenMetrics`, `Holding.Spans.observe` — the metrics at one more bar;
* `Replay.Tracks`, `Replay.tracks_of_course` — the invariant.
-/

namespace TradingRules

open Fallible

/-! ## The latest entry -/

/-- After some logs a position is open that was entered at one of them, since nothing was done after it. -/
structure EnteredAt (logs : List TickLog) (e : Nat) : Prop where
  entry : ∃ log, logs[e]? = some log ∧ log.action = some .entry
  quiet : ∀ i log, e < i → logs[i]? = some log → log.action = none

namespace EnteredAt

variable {logs : List TickLog} {log : TickLog} {e e' : Nat}

theorem lt_length (h : EnteredAt logs e) : e < logs.length := by
  obtain ⟨log, hlog, -⟩ := h.entry
  exact (List.getElem?_eq_some_iff.mp hlog).1

theorem not_lt (h : EnteredAt logs e) (h' : EnteredAt logs e') : ¬e < e' := by
  intro hlt
  obtain ⟨log, hlog, haction⟩ := h'.entry
  rw [h.quiet e' log hlt hlog] at haction
  cases haction

/-- There is only one latest entry. -/
theorem unique (h : EnteredAt logs e) (h' : EnteredAt logs e') : e = e' := by
  have hle := h.not_lt h'
  have hge := h'.not_lt h
  omega

theorem append_of_entry (haction : log.action = some .entry) : EnteredAt (logs ++ [log]) logs.length where
  entry := ⟨log, List.getElem?_concat_length, haction⟩
  quiet := by
    intro i other hi hother
    have hlast := (List.getElem?_eq_some_iff.mp hother).1
    rw [List.length_append, List.length_singleton] at hlast
    omega

theorem append_of_none (h : EnteredAt logs e) (haction : log.action = none) : EnteredAt (logs ++ [log]) e where
  entry := by
    rw [List.getElem?_append_left h.lt_length]
    exact h.entry
  quiet := by
    intro i other hi hother
    by_cases hlast : i < logs.length
    · rw [List.getElem?_append_left hlast] at hother
      exact h.quiet i other hi hother
    · rw [List.getElem?_append_right (by omega), List.getElem?_singleton] at hother
      split at hother
      · cases hother
        exact haction
      · cases hother

/-- The latest entry is the last log, or the last log did nothing. -/
theorem append_cases (h : EnteredAt (logs ++ [log]) e) :
    log.action = some .entry ∨ (log.action = none ∧ EnteredAt logs e) := by
  have hlength := h.lt_length
  rw [List.length_append, List.length_singleton] at hlength
  obtain ⟨entered, hentered, haction⟩ := h.entry
  -- the entry is the last log, or the last log comes after it and is quiet
  by_cases hlast : e = logs.length
  · subst hlast
    rw [List.getElem?_concat_length] at hentered
    cases hentered
    exact .inl haction
  · have hearlier : e < logs.length := by omega
    rw [List.getElem?_append_left hearlier] at hentered
    refine .inr ⟨h.quiet _ log hearlier List.getElem?_concat_length, ⟨entered, hentered, haction⟩, ?_⟩
    intro i other hi hother
    refine h.quiet i other hi ?_
    rw [List.getElem?_append_left (List.getElem?_eq_some_iff.mp hother).1]
    exact hother

end EnteredAt

/-! ## The bars since an entry -/

/-- The closes that are known. -/
def knownCloses (bars : List Snapshot) : List Float := bars.filterMap (·.close)

theorem knownCloses_append_bar (bars : List Snapshot) (bar : Snapshot) :
    knownCloses (bars ++ [bar]) = knownCloses bars ++ bar.close.toList := by
  unfold knownCloses
  rw [List.filterMap_append]
  cases hclose : bar.close <;> simp [hclose]

/-- A position was entered at a bar, and other bars came after it. The best of the prices is only kept for an
entry at a price that is not zero. -/
structure Holding.Spans (holding : Holding Float) (first : Snapshot) (between : List Snapshot) : Prop where
  since : holding.since = first.timestamp
  entry : holding.prices.map (·.entry) = first.close
  best : ∀ prices, holding.prices = some prices → (prices.entry == 0) = false →
    IsGreatest {close | close ∈ knownCloses (first :: between)} prices.best ∧ (prices.best == 0) = false

/-- The metrics at a bar, from the bars since the entry and nothing else. -/
structure SeenMetrics (first : Snapshot) (between : List Snapshot) (last : Snapshot)
    (metrics : Option (Metrics Float)) : Prop where
  /-- There are none without a close, at the entry or now, and after an entry at zero. -/
  unknown : first.close = none ∨ (∃ entry, first.close = some entry ∧ (entry == 0) = true) ∨
    last.close = none → metrics = none
  /-- Otherwise they are those of the two closes and the highest close from the one to the other. -/
  known : ∀ entry close, first.close = some entry → (entry == 0) = false →
    last.close = some close →
    ∃ high, IsGreatest {close | close ∈ knownCloses (first :: (between ++ [last]))} high ∧
      metrics = some {
        change := (close - entry) / entry * 100
        bestChange := (high - entry) / entry * 100
        trailing := (close - high) / high * 100
        held := last.timestamp.bind fun later => first.timestamp.map fun earlier =>
          later.microseconds - earlier.microseconds }

/-- A position that is opened at a bar spans that bar. -/
theorem Holding.spans_enter {bar : Snapshot} (hclean : Clean bar.close) :
    Holding.Spans ⟨bar.timestamp, bar.close.map fun close => ⟨close, close⟩⟩ bar [] where
  since := rfl
  entry := by cases bar.close <;> rfl
  best := by
    intro prices hprices hentry
    obtain ⟨close, hclose, rfl⟩ := Option.map_eq_some_iff.mp hprices
    have hknown : knownCloses [bar] = [close] := List.filterMap_cons_some hclose
    rw [hknown]
    exact ⟨isGreatest_singleton (hclean close hclose), hentry⟩

section Observe

variable {holding : Holding Float} {first bar : Snapshot} {between : List Snapshot} {t : Tracker Float}

/-- A bar that is skipped changes nothing about a position, and no metrics are seen at it. -/
theorem Holding.Spans.of_skips (h : holding.Spans first between) (hholding : t.holding = some holding)
    (hskips : t.Skips bar.close) :
    SeenMetrics first between bar none ∧ holding.Spans first (between ++ [bar]) := by
  refine ⟨⟨fun _ => rfl, ?_⟩, h.since, h.entry, ?_⟩
  · -- the prices at entry and now cannot both be known
    intro entry close hentry hzero hclose
    rw [← h.entry] at hentry
    obtain ⟨prices, hprices, rfl⟩ := Option.map_eq_some_iff.mp hentry
    rcases hskips holding prices hholding hprices with hnone | hskipped
    · rw [hclose] at hnone
      cases hnone
    · rw [hzero] at hskipped
      cases hskipped
  · -- after an entry at a price the bar has no close, and there is none to be counted
    intro prices hprices hentry
    rcases hskips holding prices hholding hprices with hnone | hskipped
    · rw [← List.cons_append, knownCloses_append_bar, hnone, Option.toList_none, List.append_nil]
      exact h.best prices hprices hentry
    · rw [hentry] at hskipped
      cases hskipped

/-- A bar that is measured counts for the best close, and then the metrics are seen. -/
theorem Holding.Spans.of_measures {since : Option Timestamp} {prices : Prices Float} {close : Float}
    {held : Option Int} {m : Metrics Float} (h : Holding.Spans ⟨since, some prices⟩ first between)
    (hclean : Clean bar.close) (hmeasures : t.Measures bar.close since prices close)
    (hheld : Tracker.timeHeld bar.timestamp since = .ok held)
    (hm : Tracker.measure (Tracker.advance prices close) close held = .ok m) :
    SeenMetrics first between bar (some m) ∧
      Holding.Spans ⟨since, some (Tracker.advance prices close)⟩ first (between ++ [bar]) := by
  have hentry : first.close = some prices.entry := h.entry.symm
  have hsince : since = first.timestamp := h.since
  obtain ⟨hbest, rfl⟩ := Tracker.measure_eq_ok.mp hm
  -- the close is counted before anything is measured, so it may be the highest one itself
  have hgreatest : IsGreatest {close | close ∈ knownCloses (first :: (between ++ [bar]))}
      (Tracker.advance prices close).best := by
    rw [Tracker.best_advance, ← List.cons_append, knownCloses_append_bar, hmeasures.close, Option.toList_some]
    exact isGreatest_append (h.best prices rfl hmeasures.entry).1 (hclean close hmeasures.close)
  refine ⟨⟨?_, ?_⟩, hsince, ?_, ?_⟩
  · rintro (hnone | ⟨entry, hfirst, hzero⟩ | hnone)
    · rw [hentry] at hnone
      cases hnone
    · rw [hentry] at hfirst
      cases hfirst
      rw [hmeasures.entry] at hzero
      cases hzero
    · rw [hmeasures.close] at hnone
      cases hnone
  · intro entry last hfirst _ hlast
    rw [hentry] at hfirst
    rw [hmeasures.close] at hlast
    cases hfirst
    cases hlast
    refine ⟨_, hgreatest, ?_⟩
    rw [Tracker.entry_advance, Tracker.timeHeld_eq_ok hheld, hsince]
  · rw [hentry, Option.map_some, Tracker.entry_advance]
  · intro later hlater _
    cases hlater
    exact ⟨hgreatest, hbest⟩

/-- **What one more bar does to a position**, and the metrics that are seen at it. -/
theorem Holding.Spans.observe {metrics : Option (Metrics Float)} (h : holding.Spans first between)
    (hclean : Clean bar.close) (hholding : t.holding = some holding)
    (hmetrics : (t.observe bar.close bar.timestamp).2 = .ok metrics) :
    SeenMetrics first between bar metrics ∧
      ∃ later, (t.observe bar.close bar.timestamp).1.holding = some later ∧
        later.Spans first (between ++ [bar]) := by
  rcases t.skips_or_measures bar.close with hskips | ⟨since, prices, close, hmeasures⟩
  · rw [Tracker.observe_of_skips hskips] at hmetrics ⊢
    cases hmetrics
    obtain ⟨hseen, hspans⟩ := h.of_skips hholding hskips
    exact ⟨hseen, holding, hholding, hspans⟩
  · obtain rfl : holding = ⟨since, some prices⟩ := Option.some.inj (hholding.symm.trans hmeasures.holding)
    rw [Tracker.observe_of_measures hmeasures] at hmetrics ⊢
    obtain ⟨held, hheld, hmetrics⟩ := bind_eq_ok.mp hmetrics
    obtain ⟨m, hm, rfl⟩ := map_eq_ok.mp hmetrics
    obtain ⟨hseen, hspans⟩ := h.of_measures hclean hmeasures hheld hm
    exact ⟨hseen, _, rfl, hspans⟩

end Observe

/-! ## The invariant -/

namespace Replay

/-- What a tracker remembers of several bars and the logs they made. -/
structure Tracks (bars : List Snapshot) (logs : List TickLog) (t : Tracker Float) : Prop where
  /-- No position is open unless there was an entry since the last exit. -/
  flat : t.holding = none → ∀ e, ¬EnteredAt logs e
  /-- A position that is open was entered at the latest entry. -/
  holding : ∀ holding, t.holding = some holding →
    ∃ e first between, EnteredAt logs e ∧ bars.drop e = first :: between ∧ holding.Spans first between

variable {r now next : Replay} {bars : List Snapshot} {logs : List TickLog} {bar : Snapshot} {log : TickLog}

theorem tracks_start : Tracks [] [] Tracker.flat where
  flat := by
    intro _ e h
    exact absurd h.lt_length (Nat.not_lt_zero e)
  holding := nofun

/-- The bars since an entry, with one more. -/
theorem drop_append_bar {e : Nat} {first : Snapshot} {between : List Snapshot}
    (h : bars.drop e = first :: between) (bar : Snapshot) :
    (bars ++ [bar]).drop e = first :: (between ++ [bar]) := by
  have hlt : e < bars.length := by
    by_contra hle
    rw [List.drop_eq_nil_of_le (by omega)] at h
    cases h
  rw [List.drop_append_of_le_length (by omega), h, List.cons_append]

namespace Tracks

variable {t : Tracker Float}

/-- An entry is remembered in place of whatever was. -/
theorem enter (t : Tracker Float) (hlength : logs.length = bars.length) (hclean : Clean bar.close)
    (haction : log.action = some .entry) :
    Tracks (bars ++ [bar]) (logs ++ [log]) (t.enter bar.close bar.timestamp) where
  flat := nofun
  holding := by
    intro holding hholding
    cases hholding
    refine ⟨logs.length, bar, [], .append_of_entry haction, ?_, Holding.spans_enter hclean⟩
    rw [hlength, List.drop_left]

/-- Nothing is remembered after an exit. -/
theorem leave (t : Tracker Float) (haction : log.action = some .exit) :
    Tracks (bars ++ [bar]) (logs ++ [log]) t.leave where
  flat := by
    intro _ e hentered
    rcases hentered.append_cases with hentry | ⟨hnone, -⟩
    · rw [haction] at hentry
      cases hentry
    · rw [haction] at hnone
      cases hnone
  holding := nofun

/-- Where nothing is done a position stays what it is, and the bar counts for it. -/
theorem observe {metrics : Option (Metrics Float)} (hpast : Tracks bars logs t)
    (hclean : Clean bar.close) (haction : log.action = none)
    (hmetrics : (t.observe bar.close bar.timestamp).2 = .ok metrics) :
    Tracks (bars ++ [bar]) (logs ++ [log]) (t.observe bar.close bar.timestamp).1 := by
  cases hholding : t.holding with
  | none =>
      rw [Tracker.observe_of_skips (Tracker.skips_of_holding_eq_none hholding)]
      -- nothing was held before, so an entry since the last exit would be this log's
      refine ⟨?_, ?_⟩
      · intro _ e hentered
        rcases hentered.append_cases with hentry | ⟨-, hbefore⟩
        · rw [haction] at hentry
          cases hentry
        · exact hpast.flat hholding e hbefore
      · intro holding hsome
        rw [hholding] at hsome
        cases hsome
  | some holding =>
      obtain ⟨e, first, between, hentered, hdrop, hspans⟩ := hpast.holding holding hholding
      obtain ⟨-, later, hlater, hspans'⟩ := hspans.observe hclean hholding hmetrics
      refine ⟨?_, ?_⟩
      · intro hnone
        rw [hlater] at hnone
        cases hnone
      · intro held hheld
        rw [hlater] at hheld
        cases hheld
        exact ⟨e, first, between ++ [bar], hentered.append_of_none haction, drop_append_bar hdrop bar, hspans'⟩

end Tracks

/-- **Every step preserves what is remembered.** -/
theorem tracks_of_step (hpast : Tracks bars logs now.tracker) (hlength : logs.length = bars.length)
    (hclean : Clean bar.close) (hstep : now.step bar = .ok (next, log)) :
    Tracks (bars ++ [bar]) (logs ++ [log]) next.tracker := by
  obtain ⟨metrics, hmetrics, -, -, -, htracker⟩ := step_eq_ok.mp hstep
  rw [htracker]
  cases haction : log.action with
  | none => exact hpast.observe hclean haction hmetrics
  | some action =>
      cases action with
      | entry => exact .enter (now.tracker.observe bar.close bar.timestamp).1 hlength hclean haction
      | exit => exact .leave (now.tracker.observe bar.close bar.timestamp).1 haction

/-- **A replay remembers its latest entry**, wherever it has come. -/
theorem tracks_of_course (hcourse : Course r bars logs now) (hflat : r.tracker = .flat)
    (hclean : ∀ bar ∈ bars, Clean bar.close) : Tracks bars logs now.tracker := by
  induction hcourse with
  | start =>
      rw [hflat]
      exact tracks_start
  | bar past step ih =>
      refine tracks_of_step (ih ?_) past.length_eq (hclean _ ?_) step
      · intro other hother
        exact hclean other (List.mem_append_left _ hother)
      · exact List.mem_append_right _ (List.mem_singleton_self _)

end Replay

/-- The closes of a history's bars are numbers, where they are known. -/
theorem History.clean_of_mem_snapshots {h : History} {bars : List Snapshot} (hbars : h.snapshots = .ok bars)
    {bar : Snapshot} (hbar : bar ∈ bars) : Clean bar.close := by
  obtain ⟨close, hclean, hgiven⟩ := given_of_mem_snapshots hbars hbar .closing
  rwa [Snapshot.close_of_given hgiven]

end TradingRules
