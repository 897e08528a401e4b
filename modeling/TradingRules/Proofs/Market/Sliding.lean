import Mathlib.Data.List.DropRight
import TradingRules.Proofs.Market.Rolling

/-!
# `Proofs.Market.Sliding` — a rolling window in use

A window is pushed to and cleared in any order, and every so often its context is taken to evaluate a condition. What
it holds at any time are the latest of the bars pushed since it was last cleared, as many as it has room for
(`Watched.recent_after`): a push keeps this because what was cut off at the old end would be cut off again, and
clearing begins anew. Offsets count these bars back from the latest, and nothing else can be seen under any offset.

A context is what the window holds when it is taken. It is kept here beside the window, so that calls made later can
be seen to leave it alone (`Watched.taken_after`).

## Contents
* `Window.Call`, `Window.sinceClear` — what is done with a window, and the bars since it was last cleared;
* `Window.Watched` — a window and the contexts that were taken from it;
* `Context.ShowsLatest` — a context that shows the latest of several bars;
* `Window.Slides`, `Window.ofCapacity_slides` — windows of every capacity after any calls.
-/

namespace TradingRules

namespace Window

/-! ## Calls -/

/-- What is done with a window. -/
inductive Call where
  | push (bar : Snapshot)
  | clear
  /-- Its context is taken. -/
  | look

/-- The window is cleared. -/
def Call.isClear : Call → Bool
  | .clear => true
  | _ => false

/-- A context is taken. -/
def Call.isLook : Call → Bool
  | .look => true
  | _ => false

/-- The bar that is pushed. -/
def Call.bar? : Call → Option Snapshot
  | .push bar => some bar
  | _ => none

/-- The bars pushed since the window was last cleared, the oldest first. -/
def sinceClear (calls : List Call) : List Snapshot :=
  (calls.rtakeWhile fun call => !call.isClear).filterMap Call.bar?

section SinceClear

variable (calls : List Call)

@[simp] theorem sinceClear_push (bar : Snapshot) : sinceClear (calls ++ [.push bar]) = sinceClear calls ++ [bar] := by
  simp [sinceClear, Call.isClear, Call.bar?]

@[simp] theorem sinceClear_clear : sinceClear (calls ++ [.clear]) = [] := by
  simp [sinceClear, Call.isClear]

@[simp] theorem sinceClear_look : sinceClear (calls ++ [.look]) = sinceClear calls := by
  simp [sinceClear, Call.isClear, Call.bar?]

end SinceClear

/-- A window and the contexts that were taken from it, the first of them first. -/
structure Watched where
  window : Window
  taken : List Context

namespace Watched

/-- What a call leaves behind. -/
def perform (s : Watched) : Call → Watched
  | .push bar => { s with window := s.window.push bar }
  | .clear => { s with window := s.window.clear }
  | .look => { s with taken := s.taken ++ [s.window.context] }

/-- What several calls leave behind. -/
def after (s : Watched) (calls : List Call) : Watched := calls.foldl perform s

theorem after_append (s : Watched) (earlier later : List Call) :
    s.after (earlier ++ later) = (s.after earlier).after later := List.foldl_append ..

theorem after_concat (s : Watched) (calls : List Call) (call : Call) :
    s.after (calls ++ [call]) = (s.after calls).perform call := by
  rw [after_append]
  rfl

theorem after_cons (s : Watched) (call : Call) (calls : List Call) :
    s.after (call :: calls) = (s.perform call).after calls := rfl

/-! ## What the window holds -/

theorem capacity_perform (s : Watched) (call : Call) : (s.perform call).window.capacity = s.window.capacity := by
  cases call <;> rfl

theorem capacity_after (s : Watched) (calls : List Call) : (s.after calls).window.capacity = s.window.capacity := by
  induction calls using List.reverseRecOn with
  | nil => rfl
  | append_singleton calls call ih => rw [after_concat, capacity_perform, ih]

/-- **A window holds the latest bars since it was cleared**, as many as it has room for. -/
theorem recent_after {s : Watched} (hempty : s.window.recent = []) (calls : List Call) :
    (s.after calls).window.recent = (sinceClear calls).reverse.take s.window.capacity := by
  induction calls using List.reverseRecOn with
  | nil =>
      rw [after, List.foldl_nil, hempty]
      exact List.take_nil.symm
  | append_singleton calls call ih =>
      rw [after_concat]
      cases call with
      | push bar =>
          show ((s.after calls).window.push bar).recent = _
          rw [recent_push, capacity_after, ih, sinceClear_push, List.reverse_concat]
          -- what the window had no room for before it has no room for behind one more bar
          exact take_append_take [bar] _ _
      | clear =>
          show (s.after calls).window.clear.recent = _
          rw [recent_clear, sinceClear_clear, List.reverse_nil, List.take_nil]
      | look =>
          show (s.after calls).window.recent = _
          rw [ih, sinceClear_look]

/-! ## Contexts that were taken -/

theorem taken_perform (s : Watched) (call : Call) : s.taken <+: (s.perform call).taken := by
  cases call with
  | push bar => exact List.prefix_refl _
  | clear => exact List.prefix_refl _
  | look => exact List.prefix_append _ _

/-- **No call changes a context that was taken before**; further ones come behind it. -/
theorem taken_after (s : Watched) (calls : List Call) : s.taken <+: (s.after calls).taken := by
  induction calls generalizing s with
  | nil => exact List.prefix_refl _
  | cons call calls ih =>
      rw [after_cons]
      exact (s.taken_perform call).trans (ih (s.perform call))

theorem length_taken_after (s : Watched) (calls : List Call) :
    (s.after calls).taken.length = s.taken.length + calls.countP Call.isLook := by
  induction calls using List.reverseRecOn with
  | nil => rfl
  | append_singleton calls call ih =>
      rw [after_concat, List.countP_append, ← Nat.add_assoc, ← ih]
      cases call with
      | push bar => rfl
      | clear => rfl
      | look => exact List.length_append

/-- A context that is taken is kept in its place, as it was, whatever is called later. -/
theorem getElem?_taken {s : Watched} (hnone : s.taken = []) (calls later : List Call) :
    (s.after (calls ++ .look :: later)).taken[calls.countP Call.isLook]? = some (s.after calls).window.context := by
  have hlength : (s.after calls).taken.length = calls.countP Call.isLook := by
    rw [length_taken_after, hnone, List.length_nil, Nat.zero_add]
  have htaken : ((s.after calls).perform .look).taken = (s.after calls).taken ++ [(s.after calls).window.context] := rfl
  -- the calls after the look only add contexts behind the one it took
  obtain ⟨more, hmore⟩ := taken_after ((s.after calls).perform .look) later
  rw [after_append, after_cons, ← hmore, htaken, List.append_assoc, ← hlength,
    List.getElem?_append_right (Nat.le_refl _), Nat.sub_self]
  rfl

end Watched

end Window

/-! ## What a context shows -/

/-- A context shows the latest of several bars, given from the oldest to the newest, as many as there is room for. The
offset is the number of bars after the one that is shown; any other offset shows nothing. -/
structure Context.ShowsLatest (ctx : Context) (room : Nat) (bars : List Snapshot) : Prop where
  size : ctx.size = min room bars.length
  inside : ∀ n : Nat, n < min room bars.length → ctx.at? n = bars.reverse[n]?
  outside : ∀ offset : Int, offset < 0 ∨ (min room bars.length : Nat) ≤ offset → ctx.at? offset = none

theorem Context.showsLatest_of_recent {ctx : Context} {room : Nat} {bars : List Snapshot}
    (h : ctx.recent = bars.reverse.take room) : ctx.ShowsLatest room bars := by
  have hsize : ctx.size = min room bars.length := by
    rw [size, h, List.length_take, List.length_reverse]
  refine ⟨hsize, ?inside, ?outside⟩
  case inside =>
    intro n hn
    show ctx.recent[n]? = bars.reverse[n]?
    rw [h, List.getElem?_take_of_lt (Nat.lt_min.mp hn).1]
  case outside =>
    intro offset hoffset
    cases offset with
    | negSucc n => rfl
    | ofNat n =>
        have hn : ctx.size ≤ n := by
          rw [hsize]
          simp only [Int.ofNat_eq_natCast] at hoffset
          omega
        exact List.getElem?_eq_none hn

namespace Window

/-- What a window leaves behind after several calls, of which the first finds that no context was taken. -/
def after (w : Window) (calls : List Call) : Watched := Watched.after ⟨w, []⟩ calls

/-- A window slides over the bars pushed since it was last cleared. After any calls the context it gives shows the
latest of them, and this context is still the same after any others. -/
def Slides (w : Window) (room : Nat) : Prop :=
  ∀ calls : List Call,
    (w.after calls).window.size = min room (sinceClear calls).length ∧
    (w.after calls).window.context.ShowsLatest room (sinceClear calls) ∧
    ∀ later, (w.after (calls ++ .look :: later)).taken[calls.countP Call.isLook]? =
      some (w.after calls).window.context

theorem slides_of_empty {w : Window} (hempty : w.recent = []) : w.Slides w.capacity := by
  intro calls
  have hshows : (w.after calls).window.context.ShowsLatest w.capacity (sinceClear calls) :=
    Context.showsLatest_of_recent (Watched.recent_after hempty calls)
  exact ⟨hshows.size, hshows, fun later => Watched.getElem?_taken rfl calls later⟩

/-- **Windows slide.** There is a window of every capacity from two bars up to the greatest, and it slides. Of any
greater capacity there is none. -/
theorem ofCapacity_slides {capacity : Int} (htwo : 2 ≤ capacity) :
    (capacity ≤ greatestCapacity → ∃ w, ofCapacity capacity = .ok w ∧ w.Slides capacity.toNat) ∧
    (greatestCapacity < capacity → ofCapacity capacity = .error .tooLarge) := by
  constructor
  · intro hfits
    obtain ⟨w, hw⟩ := exists_ofCapacity htwo hfits
    obtain ⟨-, -, hempty, hcapacity⟩ := ofCapacity_eq_ok.mp hw
    have hroom : capacity.toNat = w.capacity := by omega
    refine ⟨w, hw, ?_⟩
    rw [hroom]
    exact slides_of_empty hempty
  · intro hlarge
    exact ofCapacity_of_greatest_lt htwo hlarge

/-- A bar that is known by a number. -/
def numbered (n : Int) : Snapshot := { indicators := [(1, .obj [("value", .int n)])] }

/-- Three bars are pushed to a window for two, its context is taken, and it is cleared and pushed to again. The context
still shows the second bar and the third, and the window only the fourth. -/
theorem ofCapacity_slides_cleared :
    ∃ w, ofCapacity 2 = .ok w ∧
      let calls : List Call := [.push (numbered 1), .push (numbered 2), .push (numbered 3)]
      let later : List Call := [.clear, .push (numbered 4)]
      (∃ ctx, (w.after (calls ++ .look :: later)).taken[0]? = some ctx ∧ ctx.at? 0 = some (numbered 3) ∧
        ctx.at? 1 = some (numbered 2) ∧ ctx.at? 2 = none ∧ ctx.at? (-1) = none) ∧
      (w.after (calls ++ .look :: later)).window.size = 1 ∧
      (w.after (calls ++ .look :: later)).window.context.at? 0 = some (numbered 4) ∧
      (w.after (calls ++ .look :: later)).window.context.at? 1 = none := by
  obtain ⟨w, hw, hslides⟩ := (ofCapacity_slides (Int.le_refl 2)).1 (by decide)
  refine ⟨w, hw, ?_⟩
  intro calls later
  obtain ⟨-, hshows, hkept⟩ := hslides calls
  obtain ⟨hsize, hshows', -⟩ := hslides (calls ++ .look :: later)
  refine ⟨⟨_, hkept later, hshows.inside 0 (by decide), hshows.inside 1 (by decide), ?past, ?negative⟩, hsize,
    hshows'.inside 0 (by decide), ?cleared⟩
  case past => exact hshows.outside 2 (by decide)
  case negative => exact hshows.outside (-1) (by decide)
  case cleared => exact hshows'.outside 1 (by decide)

/-- Room for two bars is not all that a capacity needs: above the greatest there is no window to slide. -/
theorem not_always_slides :
    ¬∀ capacity : Int, 2 ≤ capacity → ∃ w, ofCapacity capacity = .ok w ∧ w.Slides capacity.toNat := by
  intro h
  obtain ⟨w, hw, -⟩ := h (greatestCapacity + 1) (by decide)
  rw [ofCapacity_of_greatest_lt (by decide) (by decide)] at hw
  cases hw

end Window

end TradingRules
