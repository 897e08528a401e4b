import TradingRules.Proofs.Evaluation.Locality
import TradingRules.Proofs.Market.Rolling

/-!
# `Proofs.Evaluation.Alike` — evaluation on bars that are alike

Two sequences of bars with the same indicators and prices, bar by bar, give a tree the same trace when they
are pushed into one window; their metrics have to read alike only if the tree tests the position.
-/

namespace TradingRules

/-- Two bars have the same indicators and prices. -/
structure Snapshot.SameMarket (a b : Snapshot) : Prop where
  indicators : a.indicators = b.indicators
  price : a.price = b.price

theorem Snapshot.SameMarket.indicator_eq {a b : Snapshot} (h : a.SameMarket b) (ref : Int) (field : String) :
    a.indicator ref field = b.indicator ref field := by
  unfold Snapshot.indicator
  rw [h.indicators]

/-- The metrics of two bars read alike. -/
def Snapshot.SameMetrics (a b : Snapshot) : Prop := ∀ name, a.metric name = b.metric name

open Fallible

namespace Context

variable {a b : Context}

theorem agreeTo_of_forall₂ (h : List.Forall₂ Snapshot.SameMarket a.recent b.recent) (bound : Nat) :
    a.AgreeTo bound b where
  indicator := by
    intro ref field n _
    unfold indicator at?
    dsimp only
    rcases getElem?_cases_of_forall₂ h n with ⟨ha, hb⟩ | ⟨x, y, ha, hb, hsame⟩
    · rw [ha, hb]
    · simp only [ha, hb, hsame.indicator_eq]
  price := by
    intro field n _
    unfold price at?
    dsimp only
    rcases getElem?_cases_of_forall₂ h n with ⟨ha, hb⟩ | ⟨x, y, ha, hb, hsame⟩
    · rw [ha, hb]
    · simp only [ha, hb, hsame.price]

theorem sameMetrics_of_forall₂ (h : List.Forall₂ Snapshot.SameMetrics a.recent b.recent) :
    a.SameMetrics b := by
  intro name
  unfold metric current at?
  dsimp only
  rcases getElem?_cases_of_forall₂ h 0 with ⟨ha, hb⟩ | ⟨x, y, ha, hb, hsame⟩
  · rw [ha, hb]
  · simp only [ha, hb, hsame name]

end Context

/-- What relates two sequences bar by bar relates what a window holds of them. -/
theorem Window.forall₂_recent_pushAll {R : Snapshot → Snapshot → Prop} {w : Window} (hempty : w.recent = [])
    {xs ys : List Snapshot} (h : List.Forall₂ R xs ys) :
    List.Forall₂ R (w.pushAll xs).recent (w.pushAll ys).recent := by
  rw [recent_pushAll, recent_pushAll, hempty, List.append_nil, List.append_nil]
  exact List.forall₂_take _ (List.forall₂_reverse_iff.mpr h)

/-- **Bars that are alike are evaluated alike** in a window that was empty. -/
theorem Condition.evaluate_pushAll_congr {c : Condition} {w : Window} (hempty : w.recent = [])
    {xs ys : List Snapshot} (hmarket : List.Forall₂ Snapshot.SameMarket xs ys)
    (hmetrics : c.testsPosition = true → List.Forall₂ Snapshot.SameMetrics xs ys) :
    c.evaluate (w.pushAll xs).context = c.evaluate (w.pushAll ys).context := by
  apply evaluate_congr
  -- the window cuts both sequences at the same bar, so what it holds is related too
  · exact Context.agreeTo_of_forall₂ (Window.forall₂_recent_pushAll hempty hmarket) _
  · intro htests
    exact Context.sameMetrics_of_forall₂ (Window.forall₂_recent_pushAll hempty (hmetrics htests))

end TradingRules
