import TradingRules.Evaluation.Compare
import TradingRules.Market.Window
import TradingRules.Proofs.Fallible

/-!
# `Proofs.Market.Missing` — what is no number

NaN compares with nothing: `Comparison.holds_scalar_of_isNaN`. It does not get as far as that from the data,
because whatever is read of indicators, prices and metrics is a number or missing (`Clean`).

## Contents
* `compare_of_isNaN`, `Comparison.holds_scalar_of_isNaN` — comparisons with NaN;
* `Clean` — a number that is not NaN, or none;
* `PriceBar.given_of_read` — prices that were read beforehand;
* `Context.clean_of_indicator`, `Context.clean_of_price`, `Context.clean_of_metric` — readings are clean.
-/

namespace TradingRules

open Fallible

/-! ## Comparisons with NaN -/

section Compare

variable {a b : Float}

theorem unpack_of_isNaN (h : a.isNaN = true) : a.toModel.unpack = .notANumber := by
  unfold Float.isNaN Float.Model.isNaN at h
  cases ha : a.toModel.unpack with
  | notANumber => rfl
  | infinity _ | zero _ | finite _ _ _ _ =>
      rw [ha] at h
      cases h

/-- NaN has no place in the order of numbers. -/
theorem compare_of_isNaN (h : a.isNaN = true ∨ b.isNaN = true) :
    a.toModel.unpack.compare b.toModel.unpack = none := by
  rcases h with ha | hb
  · rw [unpack_of_isNaN ha]
    cases b.toModel.unpack <;> rfl
  · rw [unpack_of_isNaN hb]
    cases a.toModel.unpack <;> rfl

theorem not_lt_of_isNaN (h : a.isNaN = true ∨ b.isNaN = true) : ¬a < b := by
  intro hlt
  have hmodel : (a.toModel.unpack.compare b.toModel.unpack == some .lt) = true := of_decide_eq_true hlt
  rw [compare_of_isNaN h] at hmodel
  cases hmodel

theorem not_le_of_isNaN (h : a.isNaN = true ∨ b.isNaN = true) : ¬a ≤ b := by
  intro hle
  have hmodel : (a.toModel.unpack.compare b.toModel.unpack).any (·.isLE) = true := of_decide_eq_true hle
  rw [compare_of_isNaN h] at hmodel
  cases hmodel

theorem beq_of_isNaN (h : a.isNaN = true ∨ b.isNaN = true) : (a == b) = false := by
  show (a.toModel.unpack.compare b.toModel.unpack == some .eq) = false
  rw [compare_of_isNaN h]
  rfl

end Compare

/-- No number compares as asked with NaN. -/
theorem Comparison.holds_scalar_of_isNaN (c : Comparison) (x : Float) {y : Float} (hy : y.isNaN = true) :
    c.holds x (.scalar y) = false := by
  cases c with
  | gt => exact decide_eq_false (not_lt_of_isNaN (.inl hy))
  | gte => exact decide_eq_false (not_le_of_isNaN (.inl hy))
  | lt => exact decide_eq_false (not_lt_of_isNaN (.inr hy))
  | lte => exact decide_eq_false (not_le_of_isNaN (.inr hy))
  | eq => exact beq_of_isNaN (.inr hy)
  | between => rfl

/-! ## Readings -/

/-- A number that may be missing is not NaN. -/
def Clean (x : Option Float) : Prop := ∀ y, x = some y → y.isNaN = false

theorem clean_none : Clean none := nofun

theorem clean_present (x : Float) : Clean (present x) := by
  intro y hy
  unfold present at hy
  split at hy
  case isTrue => cases hy
  case isFalse hx =>
    cases hy
    exact Bool.eq_false_iff.mpr hx

theorem clean_bind_present (x : Option Float) : Clean (x.bind present) := by
  cases x with
  | none => exact clean_none
  | some x => exact clean_present x

theorem Json.clean_of_reading {value : Json} {x : Option Float} (h : value.reading = .ok x) : Clean x := by
  obtain ⟨y, -, rfl⟩ := map_eq_ok.mp h
  exact clean_bind_present y

theorem clean_of_fieldReading {fields : List (String × Json)} {name : String} {x : Option Float}
    (h : fieldReading fields name = .ok x) : Clean x := Json.clean_of_reading h

/-- Prices that were read beforehand are numbers or missing. -/
theorem PriceBar.given_of_read {fields : List (String × Json)} {prices : PriceBar}
    (h : PriceBar.read fields = .ok prices) (field : PriceField) :
    ∃ x, Clean x ∧ prices.given field = numberJson x := by
  obtain ⟨opening, hopening, h⟩ := bind_eq_ok.mp h
  obtain ⟨highest, hhighest, h⟩ := bind_eq_ok.mp h
  obtain ⟨lowest, hlowest, h⟩ := bind_eq_ok.mp h
  obtain ⟨closing, hclosing, h⟩ := bind_eq_ok.mp h
  cases pure_eq_ok.mp h
  cases field with
  | closing => exact ⟨closing, clean_of_fieldReading hclosing, rfl⟩
  | opening => exact ⟨opening, clean_of_fieldReading hopening, rfl⟩
  | highest => exact ⟨highest, clean_of_fieldReading hhighest, rfl⟩
  | lowest => exact ⟨lowest, clean_of_fieldReading hlowest, rfl⟩

theorem Snapshot.close_of_given {bar : Snapshot} {x : Option Float}
    (h : bar.price.given .closing = numberJson x) : bar.close = x := by
  have hclosing : bar.price.closing = numberJson x := h
  unfold close
  rw [hclosing]
  cases x <;> rfl

theorem Snapshot.clean_of_indicator {bar : Snapshot} {ref : Int} {field : String} {x : Option Float}
    (h : bar.indicator ref field = .ok x) : Clean x := by
  unfold Snapshot.indicator at h
  split at h
  · cases h
    exact clean_none
  · cases h
    exact clean_none
  · exact clean_of_fieldReading h
  · cases h

theorem Snapshot.clean_of_metric {bar : Snapshot} {name : String} {x : Option Float}
    (h : bar.metric name = .ok x) : Clean x := by
  unfold Snapshot.metric at h
  split at h
  · exact clean_of_fieldReading h
  · cases h

namespace Context

variable {ctx : Context} {x : Option Float}

theorem clean_of_indicator {ref : Option Int} {field : String} {offset : Int}
    (h : ctx.indicator ref field offset = .ok x) : Clean x := by
  unfold indicator at h
  split at h
  · cases h
    exact clean_none
  · split at h
    · cases h
      exact clean_none
    · split at h
      · cases h
        exact clean_none
      · exact Snapshot.clean_of_indicator h

theorem clean_of_price {field : PriceField} {offset : Int} (h : ctx.price field offset = .ok x) : Clean x := by
  unfold price at h
  split at h
  · cases h
    exact clean_none
  · exact Json.clean_of_reading h

theorem clean_of_metric {name : String} (h : ctx.metric name = .ok x) : Clean x := by
  unfold metric at h
  split at h
  · cases h
    exact clean_none
  · split at h
    · cases h
      exact clean_none
    · exact Snapshot.clean_of_metric h

end Context

end TradingRules
