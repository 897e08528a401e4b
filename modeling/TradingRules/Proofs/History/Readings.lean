import TradingRules.Proofs.History.Rows
import TradingRules.Proofs.Market.Missing
import TradingRules.Market.Window

/-!
# `Proofs.History.Readings` — what a bar reads is a cell of a frame

A condition at a bar reads an indicator at an offset. The bars were put together from the frames beside them, so
what is read is the cell of the indicator's own frame that lies so many rows before the bar
(`History.value_of_indicator`). There is no value before the first row.

## Contents
* `History.cellsAt`, `History.value` — the cells of a frame;
* `History.indicator_of_snapshots` — an indicator of a bar;
* `History.value_of_indicator` — an indicator at an offset from a bar.
-/

namespace TradingRules

open Fallible

/-- Looking up after the values were changed. -/
theorem Assoc.lookup_map_snd {κ α β : Type} [BEq κ] (f : α → β) (entries : List (κ × α)) (key : κ) :
    (entries.map fun (k, v) => (k, f v)).lookup key = (entries.lookup key).map f := by
  induction entries with
  | nil => rfl
  | cons entry entries ih =>
      obtain ⟨k, v⟩ := entry
      rw [List.map_cons, List.lookup_cons, List.lookup_cons, ih]
      cases key == k <;> rfl

namespace History

/-! ## Cells -/

/-- The cells of an indicator in a row; an indicator without a frame has none. -/
def cellsAt (h : History) (ref : Int) (row : Nat) : List (String × Json) :=
  (((h.indicators.lookup ref).join.bind fun frame => frame[row]?).map (·.cells)).getD []

/-- The value of an indicator's field in a row. There is none without an indicator or the name of a field, before
the first row, or where the cell is missing or cannot be read. -/
def value (h : History) (ref : Option Int) (field : String) (row : Int) : Option Float :=
  match ref, row with
  | some ref, .ofNat row => if field.isEmpty then none else (fieldReading (h.cellsAt ref row) field).toOption.join
  | _, _ => none

theorem value_none (h : History) (field : String) (row : Int) : h.value none field row = none := by
  cases row <;> rfl

theorem value_of_neg (h : History) (ref : Option Int) (field : String) {row : Int} (hrow : row < 0) :
    h.value ref field row = none := by
  cases row with
  | ofNat row => exact absurd hrow (Int.not_lt.mpr (Int.natCast_nonneg row))
  | negSucc row => cases ref <;> rfl

theorem value_natCast (h : History) (ref : Int) {field : String} (hfield : field.isEmpty = false) (row : Nat) :
    h.value (some ref) field (row : Int) = (fieldReading (h.cellsAt ref row) field).toOption.join := by
  show (if field.isEmpty then none else _) = _
  rw [hfield]
  rfl

/-- A value is a number. -/
theorem clean_value (h : History) (ref : Option Int) (field : String) (row : Int) : Clean (h.value ref field row) := by
  unfold value
  split
  case h_2 => exact clean_none
  case h_1 ref row =>
    split
    case isTrue => exact clean_none
    case isFalse =>
      cases hread : fieldReading (h.cellsAt ref row) field with
      | error e => exact clean_none
      | ok x => exact clean_of_fieldReading hread

/-! ## The indicators of a bar -/

theorem getElem?_zipRows (bars : Frame) (indicators : List (Int × List (List (String × Json))))
    (positions : List (List (String × Json))) (i : Nat) :
    (zipRows bars indicators positions)[i]? = bars[i]?.map fun bar =>
      { bar, indicators := indicators.map fun (ref, cells) => (ref, cells[i]?.getD []),
        position := positions[i]?.getD [] } := by
  induction bars generalizing indicators positions i with
  | nil => rw [zipRows, List.getElem?_nil, List.getElem?_nil, Option.map_none]
  | cons bar bars ih =>
      rw [zipRows]
      cases i with
      | zero =>
          -- the cells of the first row are the heads of the columns
          simp only [List.getElem?_cons_zero, Option.map_some, List.head?_eq_getElem?]
      | succ i =>
          rw [List.getElem?_cons_succ, List.getElem?_cons_succ, ih]
          simp only [List.map_map, Function.comp_def, List.getElem?_tail]

theorem getElem?_of_cellsOf {role : FrameRole} {n : Nat} {frame : Option Frame} {cells : List (List (String × Json))}
    (h : cellsOf role n frame = .ok cells) (i : Nat) :
    cells[i]?.getD [] = ((frame.bind fun frame => frame[i]?).map (·.cells)).getD [] := by
  cases frame with
  | none =>
      cases h
      rw [List.getElem?_replicate]
      split <;> rfl
  | some frame =>
      rw [cellsOf] at h
      split at h
      case isFalse => cases h
      case isTrue =>
        cases h
        rw [List.getElem?_map]
        rfl

/-- The cells of an indicator, by the frame that is found under its number. -/
theorem lookup_indicatorCells {n : Nat} {frames : List (Int × Option Frame)}
    {cells : List (Int × List (List (String × Json)))} (h : indicatorCells n frames = .ok cells) (ref : Int) (i : Nat) :
    ((cells.lookup ref).map fun column => column[i]?.getD []).getD [] =
      (((frames.lookup ref).join.bind fun frame => frame[i]?).map (·.cells)).getD [] := by
  induction frames generalizing cells with
  | nil =>
      cases h
      rfl
  | cons entry frames ih =>
      obtain ⟨key, frame⟩ := entry
      obtain ⟨first, rest, hfirst, hrest, rfl⟩ := indicatorCells_cons_eq_ok.mp h
      rw [List.lookup_cons, List.lookup_cons]
      cases ref == key with
      | true => exact getElem?_of_cellsOf hfirst i
      | false => exact ih hrest

theorem cells_of_rows {h : History} {rows : List HistoryRow} (hrows : h.rows = .ok rows) {i : Nat} {row : HistoryRow}
    (hrow : rows[i]? = some row) (ref : Int) : (row.indicators.lookup ref).getD [] = h.cellsAt ref i := by
  obtain ⟨indicators, positions, hindicators, -, rfl⟩ := rows_eq_ok.mp hrows
  rw [getElem?_zipRows] at hrow
  obtain ⟨bar, -, rfl⟩ := Option.map_eq_some_iff.mp hrow
  show ((indicators.map fun (ref, cells) => (ref, cells[i]?.getD [])).lookup ref).getD [] = _
  rw [Assoc.lookup_map_snd fun cells : List (List (String × Json)) => cells[i]?.getD []]
  exact lookup_indicatorCells hindicators ref i

end History

theorem HistoryRow.indicator_of_snapshot {row : HistoryRow} {bar : Snapshot} (h : row.snapshot = .ok bar) (ref : Int)
    (field : String) : bar.indicator ref field = fieldReading ((row.indicators.lookup ref).getD []) field := by
  obtain ⟨price, -, h⟩ := bind_eq_ok.mp h
  cases pure_eq_ok.mp h
  unfold Snapshot.indicator
  rw [Assoc.lookup_map_snd Json.obj]
  cases row.indicators.lookup ref <;> rfl

namespace History

/-- **An indicator of a bar** is read from the cells of its frame in the bar's row. -/
theorem indicator_of_snapshots {h : History} {bars : List Snapshot} (hbars : h.snapshots = .ok bars) {i : Nat}
    {bar : Snapshot} (hbar : bars[i]? = some bar) (ref : Int) (field : String) :
    bar.indicator ref field = fieldReading (h.cellsAt ref i) field := by
  obtain ⟨rows, hrows, hread⟩ := snapshots_eq_ok.mp hbars
  rcases getElem?_cases_of_forall₂ hread i with ⟨-, hnone⟩ | ⟨row, bar', hrow, hbar', hsnapshot⟩
  · rw [hnone] at hbar
    cases hbar
  · cases hbar'.symm.trans hbar
    rw [HistoryRow.indicator_of_snapshot hsnapshot, cells_of_rows hrows hrow]

/-! ## An indicator at an offset -/

/-- The bar at an offset from the newest of several bars. -/
theorem at?_ofBars_take {bars : List Snapshot} {t : Nat} (ht : t < bars.length) (n : Nat) :
    (Context.ofBars (bars.take (t + 1))).at? n = if n ≤ t then bars[t - n]? else none := by
  show (bars.take (t + 1)).reverse[n]? = _
  have hlength : (bars.take (t + 1)).length = t + 1 := by
    rw [List.length_take]
    omega
  split
  case isTrue hn =>
    rw [List.getElem?_reverse (by omega), hlength, List.getElem?_take_of_lt (by omega), Nat.add_sub_cancel]
  case isFalse hn =>
    refine List.getElem?_eq_none ?_
    rw [List.length_reverse, hlength]
    omega

/-- **What is read at an offset from a bar** is the value so many rows before the bar. -/
theorem value_of_indicator {h : History} {bars : List Snapshot} (hbars : h.snapshots = .ok bars) {t : Nat}
    (ht : t < bars.length) {ref : Option Int} {field : String} {n : Nat} {x : Option Float}
    (hx : (Context.ofBars (bars.take (t + 1))).indicator ref field n = .ok x) :
    h.value ref field ((t : Int) - n) = x := by
  cases ref with
  | none =>
      cases hx
      exact h.value_none field _
  | some ref =>
      unfold Context.indicator at hx
      rw [at?_ofBars_take ht] at hx
      dsimp only at hx
      by_cases hn : n ≤ t
      · rw [if_pos hn, List.getElem?_eq_getElem (by omega)] at hx
        rw [← Int.natCast_sub hn]
        split at hx
        case isTrue hfield =>
          cases hx
          exact if_pos hfield
        case isFalse hfield =>
          replace hx : bars[t - n].indicator ref field = .ok x := hx
          rw [h.value_natCast ref (Bool.eq_false_iff.mpr hfield),
            ← indicator_of_snapshots hbars (List.getElem?_eq_getElem (by omega)), hx]
          rfl
      · -- before the first row there is no bar to read
        rw [h.value_of_neg _ _ (by omega)]
        rw [if_neg hn] at hx
        split at hx
        · cases hx
          rfl
        · cases hx
          rfl

end History

end TradingRules
