import TradingRules.Position.Tracker
import TradingRules.Proofs.Fallible

/-!
# `Proofs.Position.Observation` — a bar in the life of a position

All that a tracker does with a bar: it lets the bar pass (`Tracker.Skips`), or it counts the close for the best
one and then measures. Which of the two it does depends on what is held and on the close, never on the time;
whether it can measure depends on both.

## Contents
* `Tracker.observe_of_skips`, `Tracker.observe_of_measures`, `Tracker.skips_or_measures` — the two ways;
* `Tracker.timeHeld_eq_ok`, `Tracker.measure_eq_ok`, `Tracker.measure_eq_error` — what is measured.
-/

namespace TradingRules

open Fallible

namespace Tracker

variable {α : Type} {t : Tracker α} {close : Option α} {time since : Option Timestamp} {prices : Prices α}
  {last : α} {held : Option Int}

/-- A close does not change the price at entry. -/
@[simp] theorem entry_advance [LT α] [DecidableLT α] (prices : Prices α) (close : α) :
    (advance prices close).entry = prices.entry := by
  unfold advance
  split <;> rfl

/-- The best close is the new one if that is better. -/
theorem best_advance [LT α] [DecidableLT α] (prices : Prices α) (close : α) :
    (advance prices close).best = if prices.best < close then close else prices.best := by
  unfold advance
  split <;> rfl

/-! ## The two ways -/

variable [BEq α] [OfNat α 0]

/-- At a close there is nothing to measure: nothing is held, there is no close, or the position was entered at
no known price or at zero. -/
def Skips (t : Tracker α) (close : Option α) : Prop :=
  ∀ holding prices, t.holding = some holding → holding.prices = some prices →
    close = none ∨ (prices.entry == 0) = true

/-- At a close a position can be measured that was entered at some time at a known price, which is not zero. -/
structure Measures (t : Tracker α) (close : Option α) (since : Option Timestamp) (prices : Prices α)
    (last : α) : Prop where
  holding : t.holding = some ⟨since, some prices⟩
  close : close = some last
  entry : (prices.entry == 0) = false

theorem skips_of_holding_eq_none (h : t.holding = none) : t.Skips close := by
  intro holding prices hholding
  rw [h] at hholding
  cases hholding

/-- At a close a tracker skips or measures. -/
theorem skips_or_measures (t : Tracker α) (close : Option α) :
    t.Skips close ∨ ∃ since prices last, t.Measures close since prices last := by
  by_cases h : t.Skips close
  · exact .inl h
  · right
    unfold Skips at h
    push Not at h
    obtain ⟨⟨since, _⟩, prices, hholding, hprices, hclose, hentry⟩ := h
    subst hprices
    obtain ⟨last, hlast⟩ := Option.ne_none_iff_exists'.mp hclose
    exact ⟨since, prices, last, hholding, hlast, Bool.eq_false_iff.mpr hentry⟩

variable [Sub α] [Mul α] [Div α] [OfNat α 100]

section Observe

variable [LT α] [DecidableLT α]

/-- A bar that is skipped leaves no mark. -/
theorem observe_of_skips (h : t.Skips close) : t.observe close time = (t, .ok none) := by
  unfold observe
  split
  case h_2 => rfl
  case h_1 since prices last hholding =>
    rcases h _ prices hholding rfl with hnone | hzero
    · cases hnone
    · rw [if_pos hzero]

/-- **A bar that is measured** first counts for the best close. -/
theorem observe_of_measures (h : t.Measures close since prices last) :
    t.observe close time = (⟨some ⟨since, some (advance prices last)⟩⟩,
      (timeHeld time since).bind fun held => (measure (advance prices last) last held).map some) := by
  obtain ⟨hholding, rfl, hentry⟩ := h
  unfold observe
  rw [hholding]
  dsimp only
  rw [if_neg (by rw [hentry]; exact Bool.false_ne_true)]

end Observe

/-! ## What is measured -/

/-- The time since entry counts in microseconds where both times are known. -/
theorem timeHeld_eq_ok (h : timeHeld time since = .ok held) :
    held = time.bind fun later => since.map fun earlier => later.microseconds - earlier.microseconds := by
  unfold timeHeld at h
  split at h
  case h_2 hunknown =>
    cases h
    cases time with
    | none => rfl
    | some later =>
        cases since with
        | none => rfl
        | some earlier => exact absurd rfl (hunknown later earlier rfl)
  case h_1 later earlier =>
    unfold Timestamp.since? at h
    split at h
    case h_2 => cases h
    case h_1 micros hmicros =>
      split at hmicros
      · cases h
        exact hmicros.symm
      · cases hmicros

/-- The time since entry is known unless exactly one of two times has an offset. -/
theorem exists_timeHeld (h : ∀ later earlier, time = some later → since = some earlier →
    later.offset.isSome = earlier.offset.isSome) : ∃ held, timeHeld time since = .ok held := by
  unfold timeHeld
  split
  case h_2 => exact ⟨none, rfl⟩
  case h_1 later earlier =>
    unfold Timestamp.since?
    rw [if_pos (h later earlier rfl rfl)]
    exact ⟨_, rfl⟩

theorem measure_eq_ok {m : Metrics α} :
    measure prices last held = .ok m ↔
      (prices.best == 0) = false ∧
        m = { change := (last - prices.entry) / prices.entry * 100
              bestChange := (prices.best - prices.entry) / prices.entry * 100
              trailing := (last - prices.best) / prices.best * 100
              held } := by
  unfold measure
  by_cases hbest : (prices.best == 0) = true
  · rw [if_pos hbest, hbest]
    exact iff_of_false nofun (by simp)
  · rw [if_neg hbest, Except.ok.injEq]
    constructor
    · rintro rfl
      exact ⟨Bool.eq_false_iff.mpr hbest, rfl⟩
    · rintro ⟨-, rfl⟩
      rfl

/-- Measuring fails if and only if the best close is zero. -/
theorem measure_eq_error {e : TrackError} :
    measure prices last held = .error e ↔ (prices.best == 0) = true ∧ e = .bestIsZero := by
  unfold measure
  by_cases hbest : (prices.best == 0) = true
  · rw [if_pos hbest, Except.error.injEq]
    exact ⟨fun he => ⟨hbest, he.symm⟩, fun he => he.2.symm⟩
  · rw [if_neg hbest]
    exact iff_of_false nofun fun he => hbest he.1

section Observe

variable [LT α] [DecidableLT α] {e : TrackError}

/-- **Why metrics cannot be computed**: the bar is measured, and either its time and that of the entry cannot be
compared or the best close is zero, the new one included. -/
theorem observe_eq_error (h : (t.observe close time).2 = .error e) :
    ∃ since prices last, t.Measures close since prices last ∧
      (timeHeld time since = .error e ∨ ((advance prices last).best == 0) = true ∧ e = .bestIsZero) := by
  rcases t.skips_or_measures close with hskips | ⟨since, prices, last, hmeasures⟩
  · rw [observe_of_skips hskips] at h
    cases h
  · rw [observe_of_measures hmeasures] at h
    refine ⟨since, prices, last, hmeasures, ?_⟩
    rcases bind_eq_error.mp h with htime | ⟨held, -, hmeasure⟩
    · exact .inl htime
    · exact .inr (measure_eq_error.mp (map_eq_error.mp hmeasure))

/-- Metrics cannot be computed where the best close is zero, if the times can be compared. -/
theorem observe_of_best_eq_zero (hmeasures : t.Measures close since prices last)
    (htime : timeHeld time since = .ok held) (hbest : ((advance prices last).best == 0) = true) :
    (t.observe close time).2 = .error .bestIsZero := by
  rw [observe_of_measures hmeasures]
  exact bind_eq_error.mpr (.inr ⟨held, htime, map_eq_error.mpr (measure_eq_error.mpr ⟨hbest, rfl⟩)⟩)

end Observe

end Tracker

end TradingRules
