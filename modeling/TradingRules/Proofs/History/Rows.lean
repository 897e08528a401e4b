import Mathlib.Data.List.TakeDrop
import TradingRules.History.Basic
import TradingRules.Proofs.Market.Missing

/-!
# `Proofs.History.Rows` — the bars of a history, row by row

How the frames beside the bars decide the bars' snapshots: a history has the rows of its frames in order, so
the first rows make the first snapshots, and a frame of positions changes nothing in them but the position.

## Contents
* `History.rows_eq_ok`, `History.snapshots_eq_ok` — histories that can be read;
* `History.given_of_mem_snapshots` — the prices of bars;
* `History.take`, `History.snapshots_take` — the first rows;
* `History.withPositions`, `History.snapshots_withPositions` — another frame of positions.
-/

namespace TradingRules

open Fallible

namespace History

theorem indicatorCells_cons_eq_ok {n ref : _} {frame : Option Frame} {frames : List (Int × Option Frame)}
    {cells : List (Int × List (List (String × Json)))} :
    indicatorCells n ((ref, frame) :: frames) = .ok cells ↔
      ∃ first rest, cellsOf (.indicator ref) n frame = .ok first ∧ indicatorCells n frames = .ok rest ∧
        cells = (ref, first) :: rest := by
  rw [indicatorCells, bind_eq_ok]
  constructor
  · rintro ⟨first, hfirst, h⟩
    obtain ⟨rest, hrest, h⟩ := bind_eq_ok.mp h
    exact ⟨first, rest, hfirst, hrest, (pure_eq_ok.mp h).symm⟩
  · rintro ⟨first, rest, hfirst, hrest, rfl⟩
    exact ⟨first, hfirst, bind_eq_ok.mpr ⟨rest, hrest, rfl⟩⟩

theorem rows_eq_ok {h : History} {rows : List HistoryRow} :
    h.rows = .ok rows ↔
      ∃ indicators positions, indicatorCells h.bars.length h.indicators = .ok indicators ∧
        cellsOf .positions h.bars.length h.positions = .ok positions ∧
        rows = zipRows h.bars indicators positions := by
  unfold History.rows
  rw [bind_eq_ok]
  constructor
  · rintro ⟨indicators, hindicators, h⟩
    obtain ⟨positions, hpositions, h⟩ := bind_eq_ok.mp h
    exact ⟨indicators, positions, hindicators, hpositions, (pure_eq_ok.mp h).symm⟩
  · rintro ⟨indicators, positions, hindicators, hpositions, rfl⟩
    exact ⟨indicators, hindicators, bind_eq_ok.mpr ⟨positions, hpositions, rfl⟩⟩

theorem snapshots_eq_ok {h : History} {bars : List Snapshot} :
    h.snapshots = .ok bars ↔
      ∃ rows, h.rows = .ok rows ∧ List.Forall₂ (fun row bar => row.snapshot = .ok bar) rows bars := by
  unfold snapshots
  rw [bind_eq_ok]
  simp only [mapError_eq_ok, mapM_eq_ok]

/-- The prices of a history's bars are numbers, where they are not missing. -/
theorem given_of_mem_snapshots {h : History} {bars : List Snapshot} (hbars : h.snapshots = .ok bars)
    {bar : Snapshot} (hbar : bar ∈ bars) (field : PriceField) :
    ∃ x, Clean x ∧ bar.price.given field = numberJson x := by
  obtain ⟨rows, -, hread⟩ := snapshots_eq_ok.mp hbars
  refine forall_mem_of_forall₂ (P := fun bar => ∃ x, Clean x ∧ bar.price.given field = numberJson x)
    (hread.imp ?_) bar hbar
  intro row bar hrow
  obtain ⟨price, hprice, hrow⟩ := bind_eq_ok.mp hrow
  rw [← pure_eq_ok.mp hrow]
  exact PriceBar.given_of_read hprice field

@[simp] theorem length_zipRows (bars : Frame) (indicators : List (Int × List (List (String × Json))))
    (positions : List (List (String × Json))) : (zipRows bars indicators positions).length = bars.length := by
  induction bars generalizing indicators positions with
  | nil => rw [zipRows, List.length_nil, List.length_nil]
  | cons bar bars ih => rw [zipRows, List.length_cons, List.length_cons, ih]

/-- There is one snapshot for every bar. -/
theorem length_snapshots {h : History} {bars : List Snapshot} (hbars : h.snapshots = .ok bars) :
    bars.length = h.bars.length := by
  obtain ⟨rows, hrows, hread⟩ := snapshots_eq_ok.mp hbars
  obtain ⟨indicators, positions, -, -, rfl⟩ := rows_eq_ok.mp hrows
  rw [← hread.length_eq, length_zipRows]

/-! ## The first rows -/

/-- The first `k` rows of the bars and of every frame beside them. -/
def take (h : History) (k : Nat) : History where
  bars := h.bars.take k
  indicators := h.indicators.map fun (ref, frame) => (ref, frame.map (·.take k))
  positions := h.positions.map (·.take k)

section Take

variable {k : Nat}

theorem cellsOf_take {role : FrameRole} {n : Nat} {frame : Option Frame} {cells : List (List (String × Json))}
    (h : cellsOf role n frame = .ok cells) :
    cellsOf role (min k n) (frame.map (·.take k)) = .ok (cells.take k) := by
  cases frame with
  | none =>
      cases h
      rw [List.take_replicate]
      rfl
  | some frame =>
      rw [cellsOf] at h
      split at h
      case isFalse => cases h
      case isTrue hlength =>
        cases h
        rw [Option.map_some, cellsOf, if_pos (by rw [List.length_take, hlength]), List.map_take]

theorem indicatorCells_take {n : Nat} {frames : List (Int × Option Frame)}
    {cells : List (Int × List (List (String × Json)))} (h : indicatorCells n frames = .ok cells) :
    indicatorCells (min k n) (frames.map fun (ref, frame) => (ref, frame.map (·.take k)))
      = .ok (cells.map fun (ref, cells) => (ref, cells.take k)) := by
  induction frames generalizing cells with
  | nil =>
      cases h
      rfl
  | cons frame frames ih =>
      obtain ⟨first, rest, hfirst, hrest, rfl⟩ := indicatorCells_cons_eq_ok.mp h
      exact indicatorCells_cons_eq_ok.mpr ⟨_, _, cellsOf_take hfirst, ih hrest, rfl⟩

theorem zipRows_take (bars : Frame) (indicators : List (Int × List (List (String × Json))))
    (positions : List (List (String × Json))) :
    zipRows (bars.take k) (indicators.map fun (ref, cells) => (ref, cells.take k)) (positions.take k)
      = (zipRows bars indicators positions).take k := by
  induction bars generalizing k indicators positions with
  | nil => rw [List.take_nil, zipRows, zipRows, List.take_nil]
  | cons bar bars ih =>
      cases k with
      | zero => rw [List.take_zero, List.take_zero, List.take_zero, zipRows]
      | succ k =>
          rw [List.take_succ_cons, zipRows, zipRows, List.take_succ_cons, ← ih]
          -- a cell of the first row is the head of its column, and what is left of a column its tail
          simp only [List.map_map, Function.comp_def, List.head?_take, List.tail_take_eq_take_tail,
            Nat.add_sub_cancel, Nat.add_one_ne_zero, if_false]

theorem rows_take {h : History} {rows : List HistoryRow} (hrows : h.rows = .ok rows) :
    (h.take k).rows = .ok (rows.take k) := by
  obtain ⟨indicators, positions, hindicators, hpositions, rfl⟩ := rows_eq_ok.mp hrows
  refine rows_eq_ok.mpr ⟨_, _, ?_, ?_, (zipRows_take h.bars indicators positions).symm⟩
  · rw [take, List.length_take]
    exact indicatorCells_take hindicators
  · rw [take, List.length_take]
    exact cellsOf_take hpositions

/-- **The first rows make the first snapshots.** -/
theorem snapshots_take {h : History} {bars : List Snapshot} (hbars : h.snapshots = .ok bars) :
    (h.take k).snapshots = .ok (bars.take k) := by
  obtain ⟨rows, hrows, hread⟩ := snapshots_eq_ok.mp hbars
  exact snapshots_eq_ok.mpr ⟨rows.take k, rows_take hrows, List.forall₂_take k hread⟩

end Take

/-! ## Another frame of positions -/

/-- The history with another frame of positions, or with none. -/
def withPositions (h : History) (positions : Option Frame) : History := { h with positions }

end History

/-- A bar with other raw metrics of the position. -/
def Snapshot.withPosition (bar : Snapshot) (cells : List (String × Json)) : Snapshot :=
  { bar with position := .obj cells }

theorem HistoryRow.snapshot_withPosition {row : HistoryRow} {bar : Snapshot} {cells : List (String × Json)}
    (h : row.snapshot = .ok bar) :
    ({ row with position := cells } : HistoryRow).snapshot = .ok (bar.withPosition cells) := by
  obtain ⟨price, hprice, h⟩ := bind_eq_ok.mp h
  cases pure_eq_ok.mp h
  exact bind_eq_ok.mpr ⟨price, hprice, rfl⟩

namespace History

theorem zipRows_positions {bars : Frame} {indicators : List (Int × List (List (String × Json)))}
    (positions : List (List (String × Json))) {others : List (List (String × Json))}
    (hlength : others.length = bars.length) :
    zipRows bars indicators others
      = List.zipWith (fun row cells => { row with position := cells })
        (zipRows bars indicators positions) others := by
  induction bars generalizing indicators positions others with
  | nil => rw [zipRows, zipRows, List.zipWith_nil_left]
  | cons bar bars ih =>
      cases others with
      | nil => cases hlength
      | cons cells others =>
          rw [zipRows, zipRows, List.zipWith_cons_cons, ih positions.tail (by simpa using hlength)]
          rfl

theorem forall₂_zipWith {α β γ : Type} {R S : α → β → Prop} {f : α → γ → α} {g : β → γ → β}
    (hfg : ∀ a b c, R a b → S (f a c) (g b c)) {as : List α} {bs : List β} (h : List.Forall₂ R as bs)
    (cs : List γ) : List.Forall₂ S (List.zipWith f as cs) (List.zipWith g bs cs) := by
  induction h generalizing cs with
  | nil => exact .nil
  | cons hr _ ih =>
      cases cs with
      | nil => exact .nil
      | cons c cs => exact .cons (hfg _ _ c hr) (ih cs)

/-- **A frame of positions changes nothing but the position** of every bar. -/
theorem snapshots_withPositions {h : History} {bars : List Snapshot} {positions : Frame}
    (hbars : h.snapshots = .ok bars) (hlength : positions.length = h.bars.length) :
    (h.withPositions (some positions)).snapshots
      = .ok (List.zipWith Snapshot.withPosition bars (positions.map (·.cells))) := by
  obtain ⟨rows, hrows, hread⟩ := snapshots_eq_ok.mp hbars
  obtain ⟨indicators, others, hindicators, -, rfl⟩ := rows_eq_ok.mp hrows
  refine snapshots_eq_ok.mpr ⟨_, rows_eq_ok.mpr ⟨indicators, positions.map (·.cells), hindicators, ?_, rfl⟩, ?_⟩
  · rw [withPositions, cellsOf, if_pos hlength]
  · rw [withPositions, zipRows_positions others (by rw [List.length_map, hlength])]
    refine forall₂_zipWith (R := fun row bar => row.snapshot = .ok bar) ?_ hread _
    intro row bar cells hrow
    exact HistoryRow.snapshot_withPosition hrow

theorem position_of_mem_zipRows {n : Nat} {bars : Frame} {indicators : List (Int × List (List (String × Json)))}
    {row : HistoryRow} (hrow : row ∈ zipRows bars indicators (List.replicate n [])) : row.position = [] := by
  induction bars generalizing n indicators with
  | nil => exact absurd hrow List.not_mem_nil
  | cons bar bars ih =>
      rw [zipRows, List.tail_replicate] at hrow
      rcases List.mem_cons.mp hrow with rfl | hrow
      · cases n <;> rfl
      · exact ih hrow

/-- Without a frame of positions no bar has metrics. -/
theorem position_of_mem_snapshots {h : History} {bars : List Snapshot} (hbars : h.snapshots = .ok bars)
    (hnone : h.positions = none) {bar : Snapshot} (hbar : bar ∈ bars) : bar.position = .obj [] := by
  obtain ⟨rows, hrows, hread⟩ := snapshots_eq_ok.mp hbars
  obtain ⟨indicators, positions, -, hpositions, rfl⟩ := rows_eq_ok.mp hrows
  rw [hnone, cellsOf, Except.ok.injEq] at hpositions
  subst hpositions
  have hempty : ∀ row ∈ zipRows h.bars indicators (List.replicate h.bars.length []), row.position = [] :=
    fun _ hrow => position_of_mem_zipRows hrow
  refine forall_mem_of_forall₂ (P := fun bar => bar.position = .obj [])
    (((List.forall₂_and_left _ _).mpr ⟨hempty, hread⟩).imp ?_) bar hbar
  rintro row bar ⟨hrow, hsnapshot⟩
  obtain ⟨price, -, hsnapshot⟩ := bind_eq_ok.mp hsnapshot
  rw [← pure_eq_ok.mp hsnapshot, hrow]

end History

end TradingRules
