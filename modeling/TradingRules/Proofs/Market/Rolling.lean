import TradingRules.Market.Window

/-!
# `Proofs.Market.Rolling` — what a rolling window holds

A window forgets its oldest bar with every push once it is full. Whatever was pushed, it holds the most recent
bars, as many as it has room for: `Window.recent_pushAll`. So at every offset it has room for it shows the bar
that the whole history shows there.
-/

namespace TradingRules

namespace Window

/-- The window after several bars, the oldest of which is pushed first. -/
def pushAll (w : Window) (bars : List Snapshot) : Window := bars.foldl push w

@[simp] theorem pushAll_nil (w : Window) : w.pushAll [] = w := rfl

@[simp] theorem pushAll_cons (w : Window) (bar : Snapshot) (bars : List Snapshot) :
    w.pushAll (bar :: bars) = (w.push bar).pushAll bars := rfl

theorem pushAll_snoc (w : Window) (bars : List Snapshot) (bar : Snapshot) :
    w.pushAll (bars ++ [bar]) = (w.pushAll bars).push bar := by
  unfold pushAll
  rw [List.foldl_append]
  rfl

/-- What is pushed into a window is its current bar. -/
theorem current_push (w : Window) (bar : Snapshot) : (w.push bar).context.current = some bar := by
  obtain ⟨capacity, recent, htwo, _⟩ := w
  show (List.take capacity (bar :: recent))[0]? = some bar
  rw [List.getElem?_take_of_lt (by omega)]
  rfl

/-- What was cut from the end of the older bars is cut again behind newer ones. -/
theorem take_append_take {α : Type} (newer older : List α) (n : Nat) :
    (newer ++ older.take n).take n = (newer ++ older).take n := by
  rw [List.take_append, List.take_take, Nat.min_eq_left (Nat.sub_le ..), ← List.take_append]

/-- **A window holds the most recent bars**, as many as it has room for. -/
theorem recent_pushAll (w : Window) (bars : List Snapshot) :
    (w.pushAll bars).recent = (bars.reverse ++ w.recent).take w.capacity := by
  induction bars generalizing w with
  | nil => exact (List.take_of_length_le w.length_le_capacity).symm
  | cons bar bars ih =>
      rw [pushAll_cons, ih, capacity_push, recent_push, take_append_take, List.reverse_cons,
        List.append_assoc]
      rfl

/-- There is an empty window of every capacity from two bars up to the greatest. -/
theorem ofCapacity_eq_ok {capacity : Int} {w : Window} :
    ofCapacity capacity = .ok w ↔
      2 ≤ capacity ∧ capacity ≤ greatestCapacity ∧ w.recent = [] ∧ (w.capacity : Int) = capacity := by
  unfold ofCapacity
  split
  case isFalse hsmall => simp [hsmall]
  case isTrue htwo =>
    split
    case isFalse hlarge => simp [hlarge]
    case isTrue hfits =>
      rw [Except.ok.injEq]
      constructor
      · rintro rfl
        exact ⟨htwo, hfits, rfl, Int.toNat_of_nonneg (by omega)⟩
      · rintro ⟨-, -, hrecent, hcapacity⟩
        obtain ⟨size, recent, _, _⟩ := w
        dsimp only at hrecent hcapacity
        subst hrecent hcapacity
        rfl

theorem exists_ofCapacity {capacity : Int} (htwo : 2 ≤ capacity) (hfits : capacity ≤ greatestCapacity) :
    ∃ w, ofCapacity capacity = .ok w :=
  ⟨⟨capacity.toNat, [], by omega, Nat.zero_le _⟩,
    ofCapacity_eq_ok.mpr ⟨htwo, hfits, rfl, Int.toNat_of_nonneg (by omega)⟩⟩

/-- There is no window of a capacity above the greatest. -/
theorem ofCapacity_of_greatest_lt {capacity : Int} (htwo : 2 ≤ capacity) (hlarge : greatestCapacity < capacity) :
    ofCapacity capacity = .error .tooLarge := by
  have hnot : ¬capacity ≤ greatestCapacity := by omega
  rw [ofCapacity, dif_pos htwo, if_neg hnot]

/-- A window that was empty shows at every offset it has room for what the whole history shows there. -/
theorem at?_pushAll {w : Window} (hempty : w.recent = []) (bars : List Snapshot) {n : Nat}
    (hn : n < w.capacity) : (w.pushAll bars).context.at? n = (Context.ofBars bars).at? n := by
  show (w.pushAll bars).recent[n]? = bars.reverse[n]?
  rw [recent_pushAll, hempty, List.append_nil, List.getElem?_take_of_lt hn]

end Window

end TradingRules
