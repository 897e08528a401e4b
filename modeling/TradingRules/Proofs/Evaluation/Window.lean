import TradingRules.Proofs.Evaluation.Locality
import TradingRules.Proofs.Market.Rolling

/-!
# `Proofs.Evaluation.Window` — a bounded window is as good as the whole history

A rolling window that has room for the bar a tree reaches furthest back, and for two bars at least, gives the
tree the trace, or the error, that the whole history gives it, on every bar. The least window the settings
admit has room for every tree. Only capacities have an end: there is no window above the greatest.

## Contents
* `Context.agreeTo_of_at?`, `Context.sameMetrics_of_current` — runs of bars that show the same bars;
* `Condition.evaluate_pushAll` — evaluation on a window with room enough;
* `Condition.window_refines_history` — the same for every capacity, with the least window.
-/

namespace TradingRules

namespace Context

variable {a b : Context}

theorem agreeTo_of_at? {bound : Nat} (h : ∀ n : Nat, n ≤ bound → a.at? n = b.at? n) : a.AgreeTo bound b where
  indicator := by
    intro ref field n hn
    unfold indicator
    rw [h n hn]
  price := by
    intro field n hn
    unfold price
    rw [h n hn]

theorem sameMetrics_of_current (h : a.current = b.current) : a.SameMetrics b := by
  intro name
  unfold metric
  rw [h]

end Context

namespace Condition

/-- On a window with room for the bar furthest back a tree is evaluated as on all the bars ever pushed. -/
theorem evaluate_pushAll {c : Condition} {w : Window} (hempty : w.recent = []) (hroom : c.reach < w.capacity)
    (bars : List Snapshot) : c.evaluate (w.pushAll bars).context = c.evaluate (Context.ofBars bars) := by
  apply evaluate_congr
  · exact Context.agreeTo_of_at? fun n hn => Window.at?_pushAll hempty bars (Nat.lt_of_le_of_lt hn hroom)
  · intro _
    exact Context.sameMetrics_of_current (Window.at?_pushAll hempty bars (Nat.lt_of_lt_of_le Nat.two_pos w.two_le_capacity))

/-- **A bounded window refines the whole history.** The least window has room for every tree; and in a window
of any capacity with room for two bars and for the bar a tree reaches furthest back, the tree comes on every
bar of every sequence to the trace, or the error, that it comes to on all the bars so far. There is such a window
of every capacity up to the greatest, and of none above. -/
theorem window_refines_history (c : Condition) :
    max 2 (c.reach + 1) ≤ leastWindow ∧
    ∀ capacity : Int, (max 2 (c.reach + 1) : Nat) ≤ capacity →
      (capacity ≤ greatestCapacity → ∃ w, Window.ofCapacity capacity = .ok w ∧ ∀ (bars : List Snapshot) (i : Nat),
        c.evaluate (w.pushAll (bars.take (i + 1))).context
          = c.evaluate (Context.ofBars (bars.take (i + 1)))) ∧
      (greatestCapacity < capacity → Window.ofCapacity capacity = .error .tooLarge) := by
  refine ⟨Nat.max_le.mpr ⟨by decide, Nat.succ_le_succ c.reach_le⟩, ?_⟩
  intro capacity hroom
  have htwo : 2 ≤ capacity := by omega
  constructor
  · intro hfits
    obtain ⟨w, hw⟩ := Window.exists_ofCapacity htwo hfits
    obtain ⟨-, -, hempty, hcapacity⟩ := Window.ofCapacity_eq_ok.mp hw
    refine ⟨w, hw, ?_⟩
    intro bars i
    exact evaluate_pushAll hempty (by omega) (bars.take (i + 1))
  · intro hlarge
    exact Window.ofCapacity_of_greatest_lt htwo hlarge

/-- A crossing that looks back as far as offsets go needs the least window in full. -/
theorem window_refines_history_deepest_crossing :
    max 2 ((Condition.leaf (.cross { index := 4, targetIndex := 3 })).reach + 1) = leastWindow ∧
    ∃ w, Window.ofCapacity leastWindow = .ok w ∧ ∀ (bars : List Snapshot) (i : Nat),
      (Condition.leaf (.cross { index := 4, targetIndex := 3 })).evaluate
          (w.pushAll (bars.take (i + 1))).context
        = (Condition.leaf (.cross { index := 4, targetIndex := 3 })).evaluate
          (Context.ofBars (bars.take (i + 1))) :=
  ⟨by decide, ((window_refines_history _).2 leastWindow (by decide)).1 (by decide)⟩

/-- Room for what a tree reads is not all that a capacity needs: above the greatest there is no window. -/
theorem not_always_refined :
    ¬∀ (c : Condition) (capacity : Int), (max 2 (c.reach + 1) : Nat) ≤ capacity →
      ∃ w, Window.ofCapacity capacity = .ok w ∧ ∀ (bars : List Snapshot) (i : Nat),
        c.evaluate (w.pushAll (bars.take (i + 1))).context
          = c.evaluate (Context.ofBars (bars.take (i + 1))) := by
  intro h
  obtain ⟨w, hw, -⟩ := h (.leaf (.threshold {})) (greatestCapacity + 1) (by decide)
  rw [Window.ofCapacity_of_greatest_lt (by decide) (by decide)] at hw
  cases hw

end Condition

end TradingRules
