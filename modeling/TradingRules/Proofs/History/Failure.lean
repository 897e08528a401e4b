import TradingRules.Proofs.History.Holding
import TradingRules.Proofs.History.Prefix

/-!
# `Proofs.History.Failure` — when a replay fails midway

Rules never stop a replay: one that cannot be evaluated fails on its bar, and the replay goes on. The metrics of
the position can stop it. They are relative to the price at entry, which is checked not to be zero, and to the
best close since, which is not. After an entry above zero the best close is above zero. After an entry below zero
it stays below until a close is not, and a replay fails if that close is zero: `History.replay_fails_iff`.

## Contents
* `OneClock` — times that can be compared;
* `RisesToZero` — the bars on which a replay fails;
* `Replay.risesToZero_of_step_error`, `Replay.step_error_of_risesToZero` — when a step fails;
* `Replay.exists_risesToZero_of_run_error`, `Replay.run_error_of_risesToZero` — when a run does;
* `History.replay_fails_iff` — when a replay does; that of `History.rising` fails.
-/

namespace TradingRules

open Fallible

/-- The times are of one kind, as those of one column are: all with an offset or all without. -/
def OneClock (bars : List Snapshot) : Prop :=
  ∀ a ∈ bars, ∀ b ∈ bars, ∀ later earlier, a.timestamp = some later → b.timestamp = some earlier →
    later.offset.isSome = earlier.offset.isSome

theorem OneClock.take {bars : List Snapshot} (h : OneClock bars) (k : Nat) : OneClock (bars.take k) := by
  intro a ha b hb
  exact h a (List.mem_of_mem_take ha) b (List.mem_of_mem_take hb)

/-- After several bars and their logs a bar closes at zero, while a position is open that was entered at a known
price and whose closes have all been below zero. -/
structure RisesToZero (bars : List Snapshot) (logs : List TickLog) (last : Snapshot) : Prop where
  entered : ∃ e first between, EnteredAt logs e ∧ bars.drop e = first :: between ∧
    (∃ entry, first.close = some entry) ∧ ∀ close ∈ knownCloses (first :: between), close < 0
  zero : ∃ close, last.close = some close ∧ (close == 0) = true

namespace Replay

variable {r now : Replay} {bars : List Snapshot} {logs : List TickLog} {bar : Snapshot} {e : TrackError}

/-- The time of a bar can be compared with that of the entry. -/
theorem exists_timeHeld_since {entered : Nat} {first : Snapshot} {between : List Snapshot}
    (hclock : OneClock (bars ++ [bar])) (hdrop : bars.drop entered = first :: between) :
    ∃ held, Tracker.timeHeld bar.timestamp first.timestamp = .ok held := by
  have hfirst : first ∈ bars := List.mem_of_mem_drop (hdrop ▸ List.mem_cons_self)
  have hbar : bar ∈ bars ++ [bar] := List.mem_append_right bars (List.mem_singleton_self bar)
  exact Tracker.exists_timeHeld fun later earlier =>
    hclock bar hbar first (List.mem_append_left _ hfirst) later earlier

theorem isNaN_zero : Float.isNaN 0 = false := by decide +kernel

/-- What makes a step fail is a best close of zero, which the bar has brought. -/
theorem risesToZero_of_step_error (htracks : Tracks bars logs now.tracker) (hclock : OneClock (bars ++ [bar]))
    (hclean : Clean bar.close) (hstep : now.step bar = .error e) :
    RisesToZero bars logs bar ∧ e = .bestIsZero := by
  obtain ⟨since, prices, close, hmeasures, hfails⟩ := Tracker.observe_eq_error (step_eq_error.mp hstep)
  obtain ⟨entered, first, between, hentered, hdrop, hspans⟩ := htracks.holding _ hmeasures.holding
  obtain ⟨held, hheld⟩ := exists_timeHeld_since hclock hdrop
  rcases hfails with htime | ⟨hzero, rfl⟩
  · have hsince : since = first.timestamp := hspans.since
    rw [hsince, hheld] at htime
    cases htime
  · obtain ⟨hgreatest, hbest⟩ := hspans.best prices rfl hmeasures.entry
    rw [Tracker.best_advance] at hzero
    -- the best close was not zero before, so the bar has a better one
    have hlt : prices.best < close := by
      by_contra hle
      rw [if_neg hle, hbest] at hzero
      cases hzero
    rw [if_pos hlt] at hzero
    refine ⟨⟨⟨entered, first, between, hentered, hdrop, ⟨prices.entry, hspans.entry.symm⟩, ?_⟩, ?_⟩, rfl⟩
    · intro other hother
      have hother' : other < close := number_lt_of_le_of_lt (hgreatest.2 hother) hlt
      exact (lt_congr_of_beq (hclean close hmeasures.close) isNaN_zero hzero).mp hother'
    · exact ⟨close, hmeasures.close, hzero⟩

/-- A step fails on a bar that closes at zero after nothing but closes below. -/
theorem step_error_of_risesToZero (htracks : Tracks bars logs now.tracker) (hclock : OneClock (bars ++ [bar]))
    (hclean : Clean bar.close) (hrises : RisesToZero bars logs bar) :
    now.step bar = .error .bestIsZero := by
  obtain ⟨⟨entered, first, between, hentered, hdrop, ⟨entry, hentry⟩, hbelow⟩, close, hclose, hzero⟩ := hrises
  cases hholding : now.tracker.holding with
  | none => exact absurd hentered (htracks.flat hholding entered)
  | some holding =>
      obtain ⟨e', first', between', hentered', hdrop', hspans⟩ := htracks.holding holding hholding
      obtain rfl := hentered.unique hentered'
      obtain ⟨rfl, rfl⟩ := List.cons.inj (hdrop.symm.trans hdrop')
      -- the price at entry is among the closes, so it is known and below zero
      obtain ⟨since, prices⟩ := holding
      obtain ⟨prices, rfl, rfl⟩ := Option.map_eq_some_iff.mp (hspans.entry.trans hentry)
      have hnegative : prices.entry < 0 := hbelow _ (List.mem_filterMap.mpr ⟨first, List.mem_cons_self, hentry⟩)
      have hmeasures : now.tracker.Measures bar.close since prices close :=
        ⟨hholding, hclose, beq_of_lt hnegative⟩
      obtain ⟨hgreatest, -⟩ := hspans.best prices rfl hmeasures.entry
      -- the best close is one of those below zero, so the bar is a better one, and it is zero
      have hlt : prices.best < close :=
        (lt_congr_of_beq (hclean close hclose) isNaN_zero hzero).mpr (hbelow _ hgreatest.1)
      have hbest : ((Tracker.advance prices close).best == 0) = true := by
        rw [Tracker.best_advance, if_pos hlt, hzero]
      obtain ⟨held, hheld⟩ := exists_timeHeld_since hclock hdrop
      rw [← hspans.since] at hheld
      exact step_eq_error.mpr (Tracker.observe_of_best_eq_zero hmeasures hheld hbest)

/-! ## Runs -/

theorem take_append_bar {k : Nat} {last : Snapshot} (hlast : bars[k]? = some last) :
    bars.take k ++ [last] = bars.take (k + 1) := by
  rw [List.take_add_one, hlast, Option.toList_some]

/-- At every bar of a run the tracker remembers the bars before, and the bar has a time and a close like theirs. -/
theorem tracks_at (hflat : r.tracker = .flat) (hclock : OneClock bars)
    (hclean : ∀ bar ∈ bars, Clean bar.close) {k : Nat} {last : Snapshot}
    (hcourse : Course r (bars.take k) logs now) (hlast : bars[k]? = some last) :
    Tracks (bars.take k) logs now.tracker ∧ OneClock (bars.take k ++ [last]) ∧ Clean last.close := by
  refine ⟨tracks_of_course hcourse hflat ?_, ?_, hclean last (List.mem_of_getElem? hlast)⟩
  · intro bar hbar
    exact hclean bar (List.mem_of_mem_take hbar)
  · rw [take_append_bar hlast]
    exact hclock.take (k + 1)

/-- A run that fails comes to a bar that closes at zero after nothing but closes below. -/
theorem exists_risesToZero_of_run_error (hflat : r.tracker = .flat) (hclock : OneClock bars)
    (hclean : ∀ bar ∈ bars, Clean bar.close) (hrun : r.run bars = .error e) :
    e = .bestIsZero ∧ ∃ k logs last, r.run (bars.take k) = .ok logs ∧ bars[k]? = some last ∧
      RisesToZero (bars.take k) logs last := by
  obtain ⟨k, last, now, logs, hlast, hcourse, hstep⟩ := exists_failure_of_run hrun
  obtain ⟨htracks, hlastClock, hlastClean⟩ := tracks_at hflat hclock hclean hcourse hlast
  obtain ⟨hrises, he⟩ :=
    risesToZero_of_step_error htracks hlastClock hlastClean hstep
  exact ⟨he, k, logs, last, hcourse.run_eq, hlast, hrises⟩

/-- A run that comes to such a bar fails. -/
theorem run_error_of_risesToZero (hflat : r.tracker = .flat) (hclock : OneClock bars)
    (hclean : ∀ bar ∈ bars, Clean bar.close) {k : Nat} {last : Snapshot}
    (hrun : r.run (bars.take k) = .ok logs) (hlast : bars[k]? = some last)
    (hrises : RisesToZero (bars.take k) logs last) : r.run bars = .error .bestIsZero := by
  obtain ⟨now, hcourse⟩ := exists_course_of_run hrun
  obtain ⟨htracks, hlastClock, hlastClean⟩ := tracks_at hflat hclock hclean hcourse hlast
  have hstep : now.step last = .error .bestIsZero :=
    step_error_of_risesToZero htracks hlastClock hlastClean hrises
  -- what is left of the run begins with the bar on which it fails
  have hrest : bars = bars.take k ++ last :: bars.drop (k + 1) := by
    rw [List.append_cons, take_append_bar hlast, List.take_append_drop]
  rw [hrest, hcourse.run_append]
  exact map_eq_error.mpr (run_cons_eq_error.mpr (.inl hstep))

end Replay

namespace History

variable {h : History} {rules : RuleSet} {capacity : Option Int} {settings : Except ConfigError Settings}
  {window : Window} {bars : List Snapshot}

/-- A replay whose window and bars are there is the run over them. -/
theorem replay_eq_run (hwindow : openWindow capacity settings = .ok window)
    (hsnapshots : (h.withPositions none).snapshots = .ok bars) :
    h.replay rules capacity settings = ((Replay.start rules window).run bars).mapError .track := by
  by_cases hbars : h.bars = []
  · have hlength : bars.length = h.bars.length := length_snapshots (h := h.withPositions none) hsnapshots
    rw [hbars, List.length_nil, List.length_eq_zero_iff] at hlength
    rw [replay_of_bars_nil hbars, hlength]
    rfl
  · unfold replay
    rw [if_neg (by simpa using hbars), hwindow]
    show ((h.withPositions none).snapshots).bind _ = _
    rw [hsnapshots]
    rfl

/-- **When a replay fails midway.** If there is a window, and bars on one clock, then a replay has a log for every
bar or fails because the best close since entry is zero. It fails if and only if it comes to a bar that closes at
zero while a position is open whose closes, from the entry on, have all been below zero. -/
theorem replay_fails_iff (hwindow : openWindow capacity settings = .ok window)
    (hsnapshots : (h.withPositions none).snapshots = .ok bars) (hclock : OneClock bars) :
    ((∃ logs, h.replay rules capacity settings = .ok logs ∧ logs.length = h.bars.length) ∨
      h.replay rules capacity settings = .error (.track .bestIsZero)) ∧
    (h.replay rules capacity settings = .error (.track .bestIsZero) ↔
      ∃ k logs last, (h.take k).replay rules capacity settings = .ok logs ∧ bars[k]? = some last ∧
        RisesToZero (bars.take k) logs last) := by
  have hclean : ∀ bar ∈ bars, Clean bar.close := fun _ hbar => clean_of_mem_snapshots hsnapshots hbar
  have htaken : ∀ k, (h.take k).replay rules capacity settings
      = ((Replay.start rules window).run (bars.take k)).mapError .track :=
    fun k => replay_eq_run hwindow (h := h.take k) (snapshots_take hsnapshots)
  rw [replay_eq_run hwindow hsnapshots]
  refine ⟨?_, ?_, ?_⟩
  · cases hrun : (Replay.start rules window).run bars with
    | ok logs =>
        refine .inl ⟨logs, rfl, ?_⟩
        rw [Replay.length_run hrun, length_snapshots hsnapshots]
        rfl
    | error e =>
        obtain ⟨rfl, -⟩ := Replay.exists_risesToZero_of_run_error rfl hclock hclean hrun
        exact .inr rfl
  · intro herror
    obtain ⟨e, hrun, -⟩ := mapError_eq_error.mp herror
    obtain ⟨-, k, logs, last, hlogs, hlast, hrises⟩ :=
      Replay.exists_risesToZero_of_run_error rfl hclock hclean hrun
    refine ⟨k, logs, last, ?_, hlast, hrises⟩
    rw [htaken, hlogs]
    rfl
  · rintro ⟨k, logs, last, hlogs, hlast, hrises⟩
    rw [htaken] at hlogs
    rw [Replay.run_error_of_risesToZero rfl hclock hclean (mapError_eq_ok.mp hlogs) hlast hrises]
    rfl

/-- Two bars: a price below zero, at which the indicator is on, and then a price of zero. -/
def rising : History where
  bars := [
    ⟨.value (.int 0), [("close", .int (-2)), ("timestamp", .str "2024-01-02T09:30:00")]⟩,
    ⟨.value (.int 1), [("close", .int 0), ("timestamp", .str "2024-01-02T09:35:00")]⟩]
  indicators := [(9, some [⟨.value (.int 0), [("on", .int 1)]⟩, ⟨.value (.int 1), [("on", .int 1)]⟩])]

/-- Buys while the indicator is on, and never sells. -/
def buyOn : RuleSet where
  buying := [{
    number := 1
    side := .buy
    tree := { children := [.leaf (.threshold { indicator := some 9, field := "on", operand := .scalar 0.0 })] } }]

/-- The position is entered below zero and then closes at zero. -/
theorem replay_rising : rising.replay buyOn none (.ok {}) = .error (.track .bestIsZero) := by
  have hfails : (rising.replay buyOn none (.ok {})).map (fun _ => ()) = .error (.track .bestIsZero) := by
    decide +kernel
  exact map_eq_error.mp hfails

/-- Bars that can be read, and a window, are not enough for a replay. -/
theorem not_always_replayed :
    ¬∀ (h : History) (rules : RuleSet) (window : Window) (bars : List Snapshot),
      openWindow none (.ok {}) = .ok window → (h.withPositions none).snapshots = .ok bars →
      ∃ logs, h.replay rules none (.ok {}) = .ok logs ∧ logs.length = h.bars.length := by
  intro halways
  obtain ⟨window, hwindow, -⟩ := exists_ok_of_any
    (x := openWindow none (.ok {})) (p := fun window => window.capacity == 6) (by decide +kernel)
  obtain ⟨bars, hbars, -⟩ := exists_ok_of_any
    (x := (rising.withPositions none).snapshots) (p := fun bars => bars.length == 2) (by decide +kernel)
  obtain ⟨logs, hlogs, -⟩ := halways rising buyOn window bars hwindow hbars
  rw [replay_rising] at hlogs
  cases hlogs

/-- On these bars the replay fails, as it must after a first log. -/
theorem replay_fails_iff_rising :
    ∃ bars, (rising.withPositions none).snapshots = .ok bars ∧ OneClock bars ∧
      ∃ k logs last, (rising.take k).replay buyOn none (.ok {}) = .ok logs ∧ bars[k]? = some last ∧
        RisesToZero (bars.take k) logs last := by
  obtain ⟨window, hwindow, -⟩ := exists_ok_of_any
    (x := openWindow none (.ok {})) (p := fun window => window.capacity == 6) (by decide +kernel)
  obtain ⟨bars, hbars, htimes⟩ := exists_ok_of_any
    (x := (rising.withPositions none).snapshots)
    (p := fun bars => bars.all fun bar => bar.timestamp.all fun time => !time.offset.isSome) (by decide +kernel)
  have hoffset : ∀ bar ∈ bars, ∀ time, bar.timestamp = some time → time.offset.isSome = false := by
    intro bar hbar time htime
    have hnone := List.all_eq_true.mp htimes bar hbar
    rwa [htime, Option.all_some, Bool.not_eq_true'] at hnone
  have hclock : OneClock bars := by
    intro a ha b hb later earlier hlater hearlier
    rw [hoffset a ha later hlater, hoffset b hb earlier hearlier]
  exact ⟨bars, hbars, hclock, (replay_fails_iff hwindow hbars hclock).2.mp replay_rising⟩

end History

end TradingRules
