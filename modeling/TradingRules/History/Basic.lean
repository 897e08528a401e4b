import TradingRules.Config.Check
import TradingRules.History.Frame
import TradingRules.Market.Window
import TradingRules.Position.Tracker

/-!
# `History.Basic` — historical data as bars

A history holds the frame of bars and, row by row beside it, one frame of fields for every indicator and
possibly one of position metrics. It becomes a list of snapshots, one a bar. Frames that do not have a row for
every bar are refused before anything is read.

## Contents
* `History` and `HistoryError`;
* `History.snapshots` — the bars.
-/

namespace TradingRules

/-- Which frame lies beside the bars. -/
inductive FrameRole where
  | indicator (ref : Int)
  | positions
deriving DecidableEq, Repr

/-- The frame in words. -/
def FrameRole.text : FrameRole → String
  | .indicator ref => "indicator " ++ toString ref
  | .positions => "positions"

/-- Why a history cannot be evaluated. -/
inductive HistoryError where
  /-- A frame does not have as many rows as there are bars. -/
  | misaligned (role : FrameRole) (rows bars : Nat)
  | window (e : WindowError)
  | config (e : ConfigError)
  | read (e : ReadError)
  | track (e : TrackError)
deriving DecidableEq, Repr

/-- The error in words, where the error is that of the data's shape, of the window or of the configuration. -/
def HistoryError.message : HistoryError → String
  | .misaligned role rows bars =>
    role.text ++ " has " ++ toString rows ++ " rows but bars have " ++ toString bars
  | .window e => e.message
  | .config e => e.message
  | .read _ | .track _ => ""

/-- Bars and what lies beside them. A frame that is not given has nothing to read. -/
structure History where
  bars : Frame
  indicators : List (Int × Option Frame) := []
  positions : Option Frame := none
deriving DecidableEq

/-- A bar's row and the cells beside it. -/
structure HistoryRow where
  bar : Row
  indicators : List (Int × List (String × Json))
  position : List (String × Json)
deriving DecidableEq

namespace HistoryRow

/-- The bar as a snapshot. -/
def snapshot (r : HistoryRow) : Except ReadError Snapshot := do
  let price ← PriceBar.read r.bar.cells
  return {
    timestamp := r.bar.time
    indicators := r.indicators.map fun (ref, cells) => (ref, .obj cells)
    price
    position := .obj r.position }

end HistoryRow

namespace History

/-- The cells of a frame that is to have a row for every bar. -/
def cellsOf (role : FrameRole) (bars : Nat) : Option Frame → Except HistoryError (List (List (String × Json)))
  | none => .ok (List.replicate bars [])
  | some frame =>
    if frame.length = bars then .ok (frame.map (·.cells))
    else .error (.misaligned role frame.length bars)

/-- The cells of the indicators, in order. -/
def indicatorCells (bars : Nat) :
    List (Int × Option Frame) → Except HistoryError (List (Int × List (List (String × Json))))
  | [] => .ok []
  | (ref, frame) :: rest => do
    let cells ← cellsOf (.indicator ref) bars frame
    return (ref, cells) :: (← indicatorCells bars rest)

/-- The rows of bars with the cells beside them. -/
def zipRows : Frame → List (Int × List (List (String × Json))) → List (List (String × Json)) →
    List HistoryRow
  | [], _, _ => []
  | bar :: bars, indicators, positions =>
    { bar
      indicators := indicators.map fun (ref, cells) => (ref, cells.head?.getD [])
      position := positions.head?.getD [] }
      :: zipRows bars (indicators.map fun (ref, cells) => (ref, cells.tail)) positions.tail

/-- The bars with the cells beside them. -/
def rows (h : History) : Except HistoryError (List HistoryRow) := do
  let indicators ← indicatorCells h.bars.length h.indicators
  let positions ← cellsOf .positions h.bars.length h.positions
  return zipRows h.bars indicators positions

/-- The bars as snapshots. -/
def snapshots (h : History) : Except HistoryError (List Snapshot) := do
  let rows ← h.rows
  (rows.mapM HistoryRow.snapshot).mapError .read

end History

end TradingRules
