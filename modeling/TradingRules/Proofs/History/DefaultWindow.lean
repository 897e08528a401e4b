import TradingRules.Proofs.Config.Loading
import TradingRules.Proofs.Evaluation.Window
import TradingRules.Proofs.History.Series

/-!
# `Proofs.History.DefaultWindow` — the window of the settings shows all that a tree reads

A history that is evaluated without a window of its own takes that of the settings. Settings that were loaded have
a window in which every leaf sees all it reads, so the outcomes are those of a history without any limit on what
can be seen (`History.unlimited`). There is a window that is too large, though: a capacity has to be a signed
number of 64 bits, which nothing asks of the settings, and with a greater one no history that has a bar is
evaluated at all.

## Contents
* `History.allOutcomes`, `History.unlimited` — a condition with all bars in sight;
* `History.outcomesOn_pushAll` — a window with room enough shows as much;
* `History.openWindow_default` — the window of the settings;
* `Sources.loaded_window_suffices` — histories on loaded settings;
* `Sources.not_always_opened` — a window that cannot be opened.
-/

namespace TradingRules

open Fallible

namespace History

/-! ## All bars in sight -/

/-- Whether a condition passes on each of several bars, with this bar and all before it in sight, of which some
are given. -/
def allOutcomes (c : Condition) (past : List Snapshot) : List Snapshot → Except ReadError (List Bool)
  | [] => .ok []
  | bar :: bars => do
    let trace ← c.evaluate (.ofBars (past ++ [bar]))
    return trace.passed :: (← allOutcomes c (past ++ [bar]) bars)

/-- Whether a condition passes, bar by bar, without a limit on what can be seen. -/
def unlimited (h : History) (c : Condition) : Except HistoryError (List Bool) :=
  if h.bars.isEmpty then .ok []
  else do
    let bars ← h.snapshots
    (allOutcomes c [] bars).mapError .read

/-- A window that was empty and has room for what a condition reads shows as much as all the bars. -/
theorem outcomesOn_pushAll {c : Condition} {w : Window} (hempty : w.recent = []) (hroom : c.reach < w.capacity)
    (past bars : List Snapshot) : outcomesOn c (w.pushAll past) bars = allOutcomes c past bars := by
  induction bars generalizing past with
  | nil => rfl
  | cons bar bars ih =>
      rw [outcomesOn, allOutcomes, ← Window.pushAll_snoc, Condition.evaluate_pushAll hempty hroom, ih]

/-! ## The window of the settings -/

variable {capacity : Option Int} {settings : Settings}

/-- A history for which no window is asked opens that of the settings. -/
theorem openWindow_default (hdefault : capacity = none ∨ capacity = some 0) :
    openWindow capacity (.ok settings) = (Window.ofCapacity settings.window).mapError .window := by
  rcases hdefault with rfl | rfl <;> rfl

/-- **Where the window can be opened nothing is missed**: every outcome is what it is with all bars in sight. -/
theorem outcomes_of_openWindow {w : Window} (hopen : openWindow capacity (.ok settings) = .ok w) {c : Condition}
    (hempty : w.recent = []) (hroom : c.reach < w.capacity) (h : History) :
    h.outcomes c capacity (.ok settings) = h.unlimited c := by
  unfold outcomes unlimited
  rw [hopen]
  by_cases hbars : h.bars.isEmpty
  · rw [if_pos hbars, if_pos hbars]
  · rw [if_neg hbars, if_neg hbars]
    show (h.snapshots >>= fun bars => (outcomesOn c (w.pushAll []) bars).mapError .read) = _
    simp only [outcomesOn_pushAll hempty hroom]

end History

/-! ## Loaded settings -/

namespace Settings.WellFormed

variable {s : Settings}

/-- A window that is not too large can be opened, and has room for all that any condition reads. -/
theorem exists_window (h : s.WellFormed) (hfits : s.window ≤ greatestCapacity) :
    ∃ w, Window.ofCapacity s.window = .ok w ∧ w.recent = [] ∧ (w.capacity : Int) = s.window ∧
      ∀ c : Condition, c.reach < w.capacity := by
  have hleast : ((maxOffset + 2 : Nat) : Int) ≤ s.window := h.window
  obtain ⟨w, hw⟩ := Window.exists_ofCapacity (by omega) hfits
  obtain ⟨-, -, hempty, hcapacity⟩ := Window.ofCapacity_eq_ok.mp hw
  refine ⟨w, hw, hempty, hcapacity, ?_⟩
  intro c
  have hreach : c.reach ≤ maxOffset + 1 := c.reach_le
  omega

theorem ofCapacity_of_greatest_lt (h : s.WellFormed) (hlarge : greatestCapacity < s.window) :
    Window.ofCapacity s.window = .error .tooLarge := by
  have hleast : ((maxOffset + 2 : Nat) : Int) ≤ s.window := h.window
  exact Window.ofCapacity_of_greatest_lt (by omega) hlarge

end Settings.WellFormed

namespace Sources

/-- **Settings that were loaded are well-formed, and their window suffices** if it can be opened. Whatever the
layers and the variables, the settings hold the checked values of the configuration that these make, or defaults,
and all of them are as they should be. A history that takes the window of these settings has, if the window is no
greater than capacities are, room for all that any condition reads, and the outcomes that it has with all bars in
sight; if it is greater, no window is opened, and a history fails as soon as it has a bar. -/
theorem loaded_window_suffices {sources : Sources} {env : Environment} {s : Settings}
    (hload : sources.load env = .ok s) :
    sources.configure env = .ok (.obj s.source) ∧ s.FromSource ∧ s.WellFormed ∧
    ∀ capacity, capacity = none ∨ capacity = some 0 →
      (s.window ≤ greatestCapacity →
        (∃ w, History.openWindow capacity (.ok s) = .ok w ∧ (w.capacity : Int) = s.window ∧
          ∀ c : Condition, c.reach < w.capacity) ∧
        ∀ (h : History) (c : Condition), h.outcomes c capacity (.ok s) = h.unlimited c) ∧
      (greatestCapacity < s.window →
        History.openWindow capacity (.ok s) = .error (.window .tooLarge) ∧
        ∀ (h : History) (c : Condition), h.outcomes c capacity (.ok s) =
          if h.bars.isEmpty then .ok [] else .error (.window .tooLarge)) := by
  obtain ⟨config, hconfig, hlayer⟩ := load_eq_ok.mp hload
  obtain ⟨rfl, hwell, hsource⟩ := Settings.wellFormed_of_ofLayer hlayer
  refine ⟨hconfig, hsource, hwell, ?_⟩
  intro capacity hdefault
  refine ⟨?fits, ?large⟩
  case fits =>
    intro hfits
    obtain ⟨w, hw, hempty, hcapacity, hroom⟩ := hwell.exists_window hfits
    have hopen : History.openWindow capacity (.ok s) = .ok w := by
      rw [History.openWindow_default hdefault, hw]
      rfl
    exact ⟨⟨w, hopen, hcapacity, hroom⟩, fun h c => History.outcomes_of_openWindow hopen hempty (hroom c) h⟩
  case large =>
    intro hlarge
    have hopen : History.openWindow capacity (.ok s) = .error (.window .tooLarge) := by
      rw [History.openWindow_default hdefault, hwell.ofCapacity_of_greatest_lt hlarge]
      rfl
    refine ⟨hopen, fun h c => ?_⟩
    unfold History.outcomes
    rw [hopen]
    rfl

/-- The settings that come with the library, with a level and a window from variables, are loaded; a history that
takes their window misses nothing. -/
theorem loaded_window_suffices_bundled :
    ∃ s, Sources.bundled.load [("LOG_LEVEL", "warning"), (Variable.window.name, " 8 ")] = .ok s ∧
      s.appLevel = "WARNING" ∧ s.window = 8 ∧ s.WellFormed ∧
      ∀ (h : History) (c : Condition), h.outcomes c none (.ok s) = h.unlimited c := by
  obtain ⟨s, hs, hvalues⟩ := exists_ok_of_any
    (x := Sources.bundled.load [("LOG_LEVEL", "warning"), (Variable.window.name, " 8 ")])
    (p := fun s => decide (s.appLevel = "WARNING" ∧ s.window = 8)) (by decide +kernel)
  obtain ⟨hlevel, height⟩ := of_decide_eq_true hvalues
  obtain ⟨-, -, hwell, hwindow⟩ := loaded_window_suffices hs
  obtain ⟨hfits, -⟩ := hwindow none (.inl rfl)
  have hsmall : s.window ≤ greatestCapacity := by
    rw [height]
    decide
  exact ⟨s, hs, hlevel, height, hwell, (hfits hsmall).2⟩

/-- A window of one more than the greatest capacity. -/
def oversized : Sources where
  base := .obj [("engine", .obj [("snapshot_window", .int (greatestCapacity + 1))])]

/-- **The window of the settings cannot always be opened**: a window greater than the greatest capacity is loaded. -/
theorem not_always_opened :
    ¬∀ (sources : Sources) (env : Environment) (s : Settings), sources.load env = .ok s →
      ∃ w, History.openWindow none (.ok s) = .ok w := by
  intro halways
  obtain ⟨s, hs, hlarge⟩ := exists_ok_of_any (x := oversized.load [])
    (p := fun s => decide (greatestCapacity < s.window)) (by decide +kernel)
  obtain ⟨w, hw⟩ := halways oversized [] s hs
  rw [History.openWindow_default (.inl rfl), mapError_eq_ok] at hw
  obtain ⟨-, hfits, -⟩ := Window.ofCapacity_eq_ok.mp hw
  have hlarge : greatestCapacity < s.window := of_decide_eq_true hlarge
  omega

end Sources

end TradingRules
