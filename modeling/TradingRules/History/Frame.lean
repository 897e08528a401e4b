import TradingRules.Market.Snapshot

/-!
# `History.Frame` — tables of historical data

A frame is a list of rows from the oldest to the newest. A row has a label and raw cells under the names of
its columns. The time of a row is its cell of the column `timestamp` if there is such a column, and otherwise
its label if that is a time.

## Contents
* `Label`, `Row`, `Frame` — the data;
* `Row.time` — the time of a row;
* `Frame.ofColumns` — a frame from its columns.
-/

namespace TradingRules

/-- The label of a row. -/
inductive Label where
  | value (v : Json)
  | time (t : Timestamp)
deriving DecidableEq

/-- The label as a value; a time is written as text. -/
def Label.toJson : Label → Json
  | .value v => v
  | .time t => .str t.text

/-- One row of a frame. -/
structure Row where
  label : Label
  cells : List (String × Json)
deriving DecidableEq

/-- A table of rows from the oldest to the newest. -/
abbrev Frame := List Row

namespace Row

/-- The column that holds the times of bars. -/
def timeColumn : String := "timestamp"

/-- The time a cell holds, if it holds one. Times stand in cells as text in the form of `Timestamp.parse?`, with the
letter T between date and time; no other spelling of a time is recognised. -/
def cellTime? : Json → Option Timestamp
  | .str text => Timestamp.parse? text
  | _ => none

/-- The time of the row, if it is known. -/
def time (r : Row) : Option Timestamp :=
  match r.cells.lookup timeColumn, r.label with
  | some cell, _ => cellTime? cell
  | none, .time t => some t
  | none, .value _ => none

end Row

/-- The labels of a frame. -/
inductive Labels where
  /-- The numbers of the rows, from zero on. -/
  | numbers
  | values (labels : List Json)
  | times (times : List Timestamp)
deriving DecidableEq

/-- The labels of `n` rows that are numbered, or else the labels that are given. -/
def Labels.toList (n : Nat) : Labels → List Label
  | .numbers => (List.range n).map fun i : Nat => .value (.int i)
  | .values given => given.map .value
  | .times given => given.map .time

namespace Frame

/-- The number of cells in the first column. -/
def depth (columns : List (String × List Json)) : Nat := ((columns.head?).map (·.2.length)).getD 0

/-- The rows of columns, one for each label. A column that is too short has nulls at its end. -/
def ofLabels : List Label → List (String × List Json) → Frame
  | [], _ => []
  | label :: labels, columns =>
    { label, cells := columns.map fun (name, cells) => (name, cells.head?.getD .null) }
      :: ofLabels labels (columns.map fun (name, cells) => (name, cells.tail))

/-- A frame from its columns. Rows that are numbered are as many as the first column has cells. -/
def ofColumns (columns : List (String × List Json)) (labels : Labels) : Frame :=
  ofLabels (labels.toList (depth columns)) columns

@[simp] theorem length_ofLabels (labels : List Label) (columns : List (String × List Json)) :
    (ofLabels labels columns).length = labels.length := by
  induction labels generalizing columns with
  | nil => rfl
  | cons label labels ih => simp [ofLabels, ih]

end Frame

end TradingRules
