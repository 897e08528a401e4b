import Mathlib.Data.List.Chain
import TradingRules.Proofs.Evaluation.Crossings
import TradingRules.Proofs.Evaluation.Window
import TradingRules.Proofs.History.Readings
import TradingRules.Proofs.History.Series

/-!
# `Proofs.History.Crossing` — no crossing is missed or invented

A crossing that is evaluated on every bar of a history reads its source and its target at an offset each, and both
on the bar before as well. Seen from the bars, these are two series: at a bar stand the values that many rows
before it, and what the crossing reads as previous values is what it reads as current ones a bar earlier
(`History.outcomes_cross`). So the outcomes of the two directions tell of every stretch of bars on which both
series have values what the series do there.

## Contents
* `Cross.toward` — a crossing in a direction; `Cross.source`, `Cross.level` — its two series;
* `History.outcomes_cross` — the outcomes of both directions;
* `History.crossings_accounted` — crossings on a stretch of bars.
-/

namespace TradingRules

open Fallible

namespace Cross

/-- The same crossing in a direction. -/
def toward (c : Cross) (d : Crossing) : Cross := { c with crossing := d }

/-- The series that crosses, by the bars that read it: its value at the offset before a bar. -/
def source (c : Cross) (h : History) (t : Int) : Option Float := h.value c.indicator c.field (t - c.index.val)

/-- The series that is crossed, by the bars that read it. -/
def level (c : Cross) (h : History) (t : Int) : Option Float :=
  h.value c.target (c.targetField.getD "") (t - c.targetIndex.val)

/-- Whether the crossing passes at a bar in a direction, by the two series. -/
def passesAt (c : Cross) (h : History) (d : Crossing) (t : Nat) : Bool :=
  d.test (c.source h (t - 1)) (c.level h (t - 1)) (c.source h t) (c.level h t)

variable {c : Cross} {h : History} {d : Crossing}

/-- Where both series have numbers on a bar and on the bar before, they decide. -/
theorem passesAt_iff {a b : Nat → Float} {t : Nat} (ht : 0 < t)
    (hbefore : c.source h (t - 1 : Nat) = some (a (t - 1)) ∧ c.level h (t - 1 : Nat) = some (b (t - 1)))
    (hcurrent : c.source h t = some (a t) ∧ c.level h t = some (b t)) : c.passesAt h d t = true ↔ d.At a b t := by
  have hcast : ((t - 1 : Nat) : Int) = (t : Int) - 1 := Int.natCast_sub ht
  rw [hcast] at hbefore
  unfold passesAt
  rw [hbefore.1, hbefore.2, hcurrent.1, hcurrent.2]
  exact Crossing.holds_iff d (a (t - 1)) (b (t - 1)) (a t) (b t)

end Cross

namespace History

variable {h : History} {c : Cross} {capacity : Option Int} {settings : Except ConfigError Settings} {window : Window}
  {bars : List Snapshot} {outcomes : List Bool}

/-- A crossing that is evaluated at a bar is so in both directions, with what its two series are there. -/
theorem exists_evaluate_toward (hbars : h.snapshots = .ok bars) {t : Nat} (ht : t < bars.length) {trace : LeafTrace}
    (htrace : c.evaluate (.ofBars (bars.take (t + 1))) = .ok trace) (d : Crossing) :
    ∃ result, (c.toward d).evaluate (.ofBars (bars.take (t + 1))) = .ok result ∧ result.passed = c.passesAt h d t := by
  obtain ⟨x₁, x₂, x₃, x₄, hx₁, hx₂, hx₃, hx₄, -⟩ := Cross.evaluate_eq_ok.mp htrace
  refine ⟨_, Cross.evaluate_eq_ok.mpr ⟨x₁, x₂, x₃, x₄, hx₁, hx₂, hx₃, hx₄, rfl⟩, ?_⟩
  have hsource : c.source h t = x₁ := value_of_indicator hbars ht hx₁
  have hlevel : c.level h t = x₃ := value_of_indicator hbars ht hx₃
  -- one row further back is the same offset from the bar before
  have hsource' : c.source h (t - 1) = x₂ := by
    have hvalue := value_of_indicator hbars ht (n := c.index.val + 1) hx₂
    unfold Cross.source
    rw [← hvalue]
    congr 1
    omega
  have hlevel' : c.level h (t - 1) = x₄ := by
    have hvalue := value_of_indicator hbars ht (n := c.targetIndex.val + 1) hx₄
    unfold Cross.level
    rw [← hvalue]
    congr 1
    omega
  unfold Cross.passesAt
  rw [hsource, hsource', hlevel, hlevel']
  rfl

/-- **The outcomes of both directions** are those of the two series, bar by bar, if the history of one of them was
evaluated in a window that covers the offsets and the bar before. -/
theorem outcomes_cross (hopen : openWindow capacity settings = .ok window)
    (hroom : max c.index.val c.targetIndex.val + 1 < window.capacity)
    (hreturns : h.outcomes (.leaf (.cross c)) capacity settings = .ok outcomes) (d : Crossing) :
    h.outcomes (.leaf (.cross (c.toward d))) capacity settings =
      .ok ((List.range h.bars.length).map (c.passesAt h d)) := by
  by_cases hnone : h.bars = []
  · unfold History.outcomes
    rw [hnone]
    rfl
  · obtain ⟨w, bars, hopen', hbars, hon⟩ := (outcomes_eq_ok hnone).mp hreturns
    cases hopen.symm.trans hopen'
    have hempty : window.recent = [] := recent_of_openWindow hopen
    have hreach : ∀ e, (Condition.leaf (.cross (c.toward e))).reach < window.capacity := fun e => by
      rw [Condition.reach_leaf]
      exact hroom
    refine (outcomes_eq_ok hnone).mpr ⟨window, bars, hopen, hbars, ?_⟩
    rw [← length_snapshots hbars]
    refine outcomesOn_of_evaluate fun t ht => ?_
    obtain ⟨trace, htrace, -⟩ := evaluate_of_outcomesOn hon ht
    rw [Condition.evaluate_pushAll (c := .leaf (.cross c)) hempty (hreach c.crossing)] at htrace
    rw [Condition.evaluate_pushAll hempty (hreach d)]
    obtain ⟨leaf, hleaf, -⟩ := Condition.evaluate_leaf_eq_ok.mp htrace
    obtain ⟨result, hresult, hpassed⟩ := exists_evaluate_toward hbars ht hleaf d
    exact ⟨.leaf result, Condition.evaluate_leaf_eq_ok.mpr ⟨result, hresult, rfl⟩, hpassed⟩

/-- **Crossings are accounted for.** Let a crossing be evaluated on every bar of a history, in a window that covers
its offsets. Then the histories of both directions have an outcome at every bar, and no bar passes in both. On every
stretch of bars on which both series have values, the first `a` and the second `b`, and in either direction,
* if the first series is short of the second on the first bar and beyond it on the last, a bar between passes, or
  the last one;
* if the first series is beyond the second throughout, or short of it throughout, none of these bars passes;
* if the two differ throughout, the bars that pass do so in the two directions by turns. -/
theorem crossings_accounted (hopen : openWindow capacity settings = .ok window)
    (hroom : max c.index.val c.targetIndex.val + 1 < window.capacity)
    (hreturns : h.outcomes (.leaf (.cross c)) capacity settings = .ok outcomes) :
    ∃ passes : Crossing → List Bool,
      (∀ d, h.outcomes (.leaf (.cross (c.toward d))) capacity settings = .ok (passes d) ∧
        (passes d).length = h.bars.length) ∧
      (∀ t : Nat, ¬((passes .above)[t]? = some true ∧ (passes .below)[t]? = some true)) ∧
      ∀ (i j : Nat) (a b : Nat → Float), i < j → j < h.bars.length →
        (∀ t : Nat, i ≤ t → t ≤ j → c.source h t = some (a t) ∧ c.level h t = some (b t)) →
        (∀ d : Crossing, d.Short (a i) (b i) → d.Beyond (a j) (b j) →
          ∃ t, i < t ∧ t ≤ j ∧ (passes d)[t]? = some true) ∧
        (∀ d : Crossing, (∀ t, i ≤ t → t ≤ j → d.Beyond (a t) (b t)) ∨ (∀ t, i ≤ t → t ≤ j → d.Short (a t) (b t)) →
          ∀ t, i < t → t ≤ j → (passes d)[t]? = some false) ∧
        ((∀ t, i ≤ t → t ≤ j → (a t == b t) = false) →
          (Crossing.signals passes (i + 1) (j - i)).IsChain (· ≠ ·)) := by
  have houtcome : ∀ d t, t < h.bars.length →
      ((List.range h.bars.length).map (c.passesAt h d))[t]? = some (c.passesAt h d t) := by
    intro d t ht
    rw [List.getElem?_map, List.getElem?_range ht]
    rfl
  refine ⟨fun d => (List.range h.bars.length).map (c.passesAt h d), ?outcomes, ?exclusive, ?stretch⟩
  case outcomes => exact fun d => ⟨outcomes_cross hopen hroom hreturns d, by rw [List.length_map, List.length_range]⟩
  case exclusive =>
    rintro t ⟨habove, hbelow⟩
    have ht : t < h.bars.length := by
      have hlt := (List.getElem?_eq_some_iff.mp habove).1
      rwa [List.length_map, List.length_range] at hlt
    rw [houtcome _ t ht, Option.some.injEq] at habove hbelow
    exact Crossing.test_exclusive _ _ _ _ ⟨habove, hbelow⟩
  case stretch =>
    intro i j a b hij hj hseries
    have hnumbers : Crossing.Numbers a b i j := by
      intro t hit htj
      obtain ⟨ha, hb⟩ := hseries t hit htj
      exact ⟨h.clean_value _ _ _ _ ha, h.clean_value _ _ _ _ hb⟩
    have hpasses : ∀ d t, i < t → t ≤ j → (c.passesAt h d t = true ↔ d.At a b t) := fun d t hit htj =>
      Cross.passesAt_iff (by omega) (hseries (t - 1) (by omega) (by omega)) (hseries t (by omega) htj)
    refine ⟨?missed, ?invented, ?turns⟩
    case missed =>
      intro d hi hj'
      obtain ⟨t, hit, htj, hat⟩ := Crossing.exists_at hij hnumbers hi hj'
      refine ⟨t, hit, htj, ?_⟩
      rw [houtcome d t (by omega), (hpasses d t hit htj).mpr hat]
    case invented =>
      intro d hstays t hit htj
      rw [houtcome d t (by omega), Option.some.injEq, Bool.eq_false_iff]
      exact fun hpassed => Crossing.not_at hstays hit htj ((hpasses d t hit htj).mp hpassed)
    case turns =>
      intro hdiffer
      obtain ⟨k, rfl⟩ : ∃ k, j = i + k := ⟨j - i, by omega⟩
      rw [Nat.add_sub_cancel_left]
      obtain ⟨ha, hb⟩ := hnumbers i (le_refl i) (by omega)
      obtain ⟨side, hside⟩ := Crossing.exists_beyond ha hb (hdiffer i (le_refl i) (by omega))
      refine List.IsChain.tail (Crossing.isChain_signals ?_ hnumbers hdiffer hside)
      intro d t hit htk
      rw [houtcome d t (by omega), Option.some.injEq]
      exact hpasses d t hit htk

/-- Seven bars on which one series touches another and passes it, and then goes from side to side. -/
def touching : History where
  bars := (List.range 7).map fun i => ⟨.value (.int i), []⟩
  indicators := [
    (1, some ([1.0, 2.0, 3.0, 1.0, 3.0, 1.0, 1.0].map fun value => ⟨.value .null, [("fast", .float value)]⟩)),
    (2, some ((List.replicate 7 2.0).map fun value => ⟨.value .null, [("slow", .float value)]⟩))]

/-- The first series of a bar ago against the second. -/
def delayed : Cross where
  indicator := some 1
  field := "fast"
  target := some 2
  targetField := some "slow"
  index := 1

/-- The crossing after the bar on which the series touch is found, and found once; later ones come by turns. -/
theorem crossings_accounted_touching :
    ∃ passes : Crossing → List Bool,
      touching.outcomes (.leaf (.cross delayed)) (some 3) (.ok {}) = .ok (passes .above) ∧
      passes .above = [false, false, false, true, false, true, false] ∧
      (∃ t, 1 < t ∧ t ≤ 3 ∧ (passes .above)[t]? = some true) ∧
      (Crossing.signals passes 4 3).IsChain (· ≠ ·) := by
  obtain ⟨outcomes, hreturns, hvalues⟩ := exists_ok_of_any
    (x := touching.outcomes (.leaf (.cross delayed)) (some 3) (.ok {}))
    (p := fun outcomes => outcomes == [false, false, false, true, false, true, false]) (by decide +kernel)
  have hopen : openWindow (some 3) (.ok {}) = .ok ⟨3, [], by decide, by decide⟩ := rfl
  obtain ⟨passes, houtcomes, -, hstretch⟩ := crossings_accounted hopen (by decide) hreturns
  have habove : outcomes = passes .above := Except.ok.inj (hreturns.symm.trans (houtcomes .above).1)
  let a : Nat → Float := fun t => [0.0, 1.0, 2.0, 3.0, 1.0, 3.0, 1.0].getD t 0.0
  have hrows : ∀ t : Nat, t ∈ List.range' 1 6 →
      delayed.source touching t = some (a t) ∧ delayed.level touching t = some 2.0 := by decide +kernel
  have hseries : ∀ t : Nat, 1 ≤ t → t ≤ 6 →
      delayed.source touching t = some (a t) ∧ delayed.level touching t = some 2.0 :=
    fun t ht ht' => hrows t (List.mem_range'_1.mpr ⟨ht, by omega⟩)
  refine ⟨passes, habove ▸ hreturns, habove ▸ beq_iff_eq.mp hvalues, ?touch, ?turns⟩
  case touch =>
    obtain ⟨hmissed, -⟩ := hstretch 1 3 a (fun _ => 2.0) (by decide) (by decide) fun t ht ht' => hseries t ht (by omega)
    exact hmissed .above (show (1.0 : Float) ≤ 2.0 by decide +kernel) (show (2.0 : Float) < 3.0 by decide +kernel)
  case turns =>
    obtain ⟨-, -, hturns⟩ := hstretch 3 6 a (fun _ => 2.0) (by decide) (by decide) fun t ht ht' => hseries t (by omega) ht'
    have hdiffer : ∀ t : Nat, t ∈ List.range' 3 4 → (a t == 2.0) = false := by decide +kernel
    exact hturns fun t ht ht' => hdiffer t (List.mem_range'_1.mpr ⟨ht, by omega⟩)

end History

end TradingRules
