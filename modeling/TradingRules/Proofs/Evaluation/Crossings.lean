import TradingRules.Evaluation.Compare
import TradingRules.Proofs.Market.Order

/-!
# `Proofs.Evaluation.Crossings` — crossings along two series

A crossing is detected on two bars, the one before and the current one, and its two conditions are the two ways in
which numbers can stand to each other: on the earlier bar the first series has not passed the second, on the later
one it has. Numbers always stand in one of the two ways, and equal numbers have not passed each other in either
direction. What is detected bar by bar therefore accounts for a whole run of bars: a series that gets from one side
to the other crosses on the way, one that stays does not cross, and where the two series never meet the crossings
go up and down by turns.

## Contents
* `Crossing.Beyond`, `Crossing.Short` — two numbers in the direction of a crossing;
* `Crossing.At` — one series crosses another at a bar;
* `Crossing.exists_at`, `Crossing.not_at` — runs of bars with a crossing and without one;
* `Crossing.isChain_signals` — crossings by turns.
-/

namespace TradingRules

namespace Crossing

/-! ## Two numbers -/

/-- The first number has passed the second in the direction of the crossing. -/
def Beyond (d : Crossing) (x y : Float) : Prop :=
  match d with
  | .above => y < x
  | .below => x < y

/-- The first number has not passed the second in the direction of the crossing; they may be equal. -/
def Short (d : Crossing) (x y : Float) : Prop :=
  match d with
  | .above => x ≤ y
  | .below => y ≤ x

variable {d e : Crossing} {x y : Float}

/-- A crossing between two bars. -/
theorem holds_iff (d : Crossing) (p q x y : Float) : d.holds p q x y = true ↔ d.Short p q ∧ d.Beyond x y := by
  cases d with
  | above => simp [holds, Short, Beyond]
  | below => simp [holds, Short, Beyond]

theorem Beyond.not_short (h : d.Beyond x y) : ¬d.Short x y := by
  cases d with
  | above => exact number_not_le_of_lt h
  | below => exact number_not_le_of_lt h

theorem short_of_not_beyond (hx : x.isNaN = false) (hy : y.isNaN = false) (h : ¬d.Beyond x y) : d.Short x y := by
  cases d with
  | above => exact number_le_of_not_lt hy hx h
  | below => exact number_le_of_not_lt hx hy h

/-- What is beyond in one direction is short in the other. -/
theorem Beyond.short_of_ne (h : d.Beyond x y) (hne : e ≠ d) : e.Short x y := by
  cases d with
  | above =>
      cases e with
      | above => exact absurd rfl hne
      | below => exact number_le_of_lt h
  | below =>
      cases e with
      | above => exact number_le_of_lt h
      | below => exact absurd rfl hne

theorem Beyond.unique (hd : d.Beyond x y) (he : e.Beyond x y) : e = d := by
  by_contra hne
  exact he.not_short (hd.short_of_ne hne)

/-- Of two numbers that differ the first is beyond the second in one of the directions. -/
theorem exists_beyond (hx : x.isNaN = false) (hy : y.isNaN = false) (hne : (x == y) = false) :
    ∃ d : Crossing, d.Beyond x y := by
  rcases number_lt_or_gt hx hy hne with h | h
  · exact ⟨.below, h⟩
  · exact ⟨.above, h⟩

/-- No four numbers are a crossing in both directions, whichever of them are missing. -/
theorem test_exclusive (previous previousTarget actual target : Option Float) :
    ¬(Crossing.above.test previous previousTarget actual target = true ∧
      Crossing.below.test previous previousTarget actual target = true) := by
  rintro ⟨habove, hbelow⟩
  unfold test at habove hbelow
  split at habove
  case h_1 p q x y =>
    have hup : Crossing.above.Beyond x y := ((holds_iff _ p q x y).mp habove).2
    have hdown : Crossing.below.Beyond x y := ((holds_iff _ p q x y).mp hbelow).2
    cases hup.unique hdown
  case h_2 => cases habove

/-! ## Two series -/

section Series

variable {a b : Nat → Float} {i j t : Nat}

/-- The first series crosses the second at a bar: it is short of it on the bar before and beyond it on this one. -/
def At (d : Crossing) (a b : Nat → Float) (t : Nat) : Prop := d.Short (a (t - 1)) (b (t - 1)) ∧ d.Beyond (a t) (b t)

/-- The two series have numbers from one bar to another. -/
def Numbers (a b : Nat → Float) (i j : Nat) : Prop :=
  ∀ t, i ≤ t → t ≤ j → (a t).isNaN = false ∧ (b t).isNaN = false

/-- **No crossing is missed**: on the way from short to beyond there is one. -/
theorem exists_at (hij : i < j) (hnumbers : Numbers a b i j) (hi : d.Short (a i) (b i)) (hj : d.Beyond (a j) (b j)) :
    ∃ t, i < t ∧ t ≤ j ∧ d.At a b t := by
  induction j, hij using Nat.le_induction with
  | base => exact ⟨i + 1, Nat.lt_succ_self i, le_refl _, hi, hj⟩
  | succ j hij ih =>
      -- the last bar but one decides whether the crossing is at the last bar or before
      by_cases hmid : d.Beyond (a j) (b j)
      · obtain ⟨t, hit, htj, hat⟩ := ih (fun t hit htj => hnumbers t hit (Nat.le_succ_of_le htj)) hmid
        exact ⟨t, hit, Nat.le_succ_of_le htj, hat⟩
      · obtain ⟨ha, hb⟩ := hnumbers j (Nat.le_of_succ_le hij) (Nat.le_succ j)
        exact ⟨j + 1, Nat.lt_succ_of_lt hij, le_refl _, short_of_not_beyond ha hb hmid, hj⟩

/-- **No crossing is invented**: a series that stays beyond the other, or short of it, does not cross it. -/
theorem not_at (h : (∀ t, i ≤ t → t ≤ j → d.Beyond (a t) (b t)) ∨ ∀ t, i ≤ t → t ≤ j → d.Short (a t) (b t))
    (hit : i < t) (htj : t ≤ j) : ¬d.At a b t := by
  rintro ⟨hshort, hbeyond⟩
  rcases h with hstays | hstays
  -- the bar before speaks against a series that is beyond, the bar itself against one that is short
  · exact (hstays (t - 1) (by omega) (by omega)).not_short hshort
  · exact hbeyond.not_short (hstays t (Nat.le_of_lt hit) htj)

/-- Where the two series differ, they cross at a bar if and only if they changed sides. -/
theorem at_iff_of_beyond {before after : Crossing} (hbefore : before.Beyond (a (t - 1)) (b (t - 1)))
    (hafter : after.Beyond (a t) (b t)) : d.At a b t ↔ d = after ∧ after ≠ before := by
  constructor
  · rintro ⟨hshort, hbeyond⟩
    obtain rfl : d = after := hafter.unique hbeyond
    refine ⟨rfl, ?_⟩
    rintro rfl
    exact hbefore.not_short hshort
  · rintro ⟨rfl, hne⟩
    exact ⟨hbefore.short_of_ne hne, hafter⟩

/-! ## Crossings by turns -/

/-- The directions in which bars from the first one on pass, in order, by the outcomes of the two directions. -/
def signals (passes : Crossing → List Bool) (first count : Nat) : List Crossing :=
  (List.range' first count).flatMap fun t => [.above, .below].filter fun d => (passes d)[t]? == some true

theorem signals_succ (passes : Crossing → List Bool) (first count : Nat) :
    signals passes first (count + 1) =
      ([.above, .below].filter fun d => (passes d)[first]? == some true) ++ signals passes (first + 1) count := by
  unfold signals
  rw [List.range'_succ, List.flatMap_cons]

theorem filter_of_iff_eq {p : Crossing → Bool} (h : ∀ e, p e = true ↔ e = d) : [.above, .below].filter p = [d] := by
  cases d <;> simp [h]

theorem filter_of_not {p : Crossing → Bool} (h : ∀ e, ¬p e = true) : [.above, .below].filter p = [] := by
  simp [h]

/-- **Crossings come by turns**: where two series differ at every bar, no two crossings in a row have one direction,
and the first does not have that of the side on which the series begin. -/
theorem isChain_signals {passes : Crossing → List Bool} {k : Nat} {side : Crossing}
    (hpasses : ∀ d t, i < t → t ≤ i + k → ((passes d)[t]? = some true ↔ d.At a b t))
    (hnumbers : Numbers a b i (i + k)) (hdiffer : ∀ t, i ≤ t → t ≤ i + k → (a t == b t) = false)
    (hside : side.Beyond (a i) (b i)) : (side :: signals passes (i + 1) k).IsChain (· ≠ ·) := by
  induction k generalizing i side with
  | zero => exact .singleton side
  | succ k ih =>
      -- the side of the first bar after the start is what the other bars start from
      obtain ⟨ha, hb⟩ := hnumbers (i + 1) (by omega) (by omega)
      obtain ⟨after, hafter⟩ := exists_beyond ha hb (hdiffer (i + 1) (by omega) (by omega))
      have hhere : ∀ d, (passes d)[i + 1]? = some true ↔ d = after ∧ after ≠ side := fun d =>
        (hpasses d (i + 1) (by omega) (by omega)).trans (at_iff_of_beyond hside hafter)
      have hrest : (after :: signals passes (i + 1 + 1) k).IsChain (· ≠ ·) :=
        ih (fun d t hit htk => hpasses d t (by omega) (by omega)) (fun t hit htk => hnumbers t (by omega) (by omega))
          (fun t hit htk => hdiffer t (by omega) (by omega)) hafter
      rw [signals_succ]
      by_cases hstays : after = side
      · subst hstays
        rw [filter_of_not (by simp [hhere])]
        exact hrest
      · rw [filter_of_iff_eq (d := after) (by simp [hhere, hstays])]
        exact .cons_cons (Ne.symm hstays) hrest

end Series

end Crossing

end TradingRules
