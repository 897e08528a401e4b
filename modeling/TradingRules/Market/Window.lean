import TradingRules.Market.Snapshot

/-!
# `Market.Window` — the bars that can be seen

A condition sees a run of bars that ends with the current one. `Context` is such a run, the current bar
first, so that offset `n` is the `n`-th entry. `Window` is a rolling run of bounded length, into which every
completed bar is pushed.

## Contents
* `Context` — reading indicators, prices and metrics at an offset;
* `Window` — `ofCapacity`, `push`, `clear`, and its context.
-/

namespace TradingRules

/-- The bars that can be seen, the current one first. -/
structure Context where
  recent : List Snapshot
deriving DecidableEq, Inhabited

namespace Context

/-- The bars of a history, given from the oldest to the newest. -/
def ofBars (bars : List Snapshot) : Context := ⟨bars.reverse⟩

/-- The current bar and the one before it, if there is one. -/
def ofTicks (current : Snapshot) (previous : Option Snapshot) : Context := ⟨current :: previous.toList⟩

/-- The number of bars. -/
def size (ctx : Context) : Nat := ctx.recent.length

/-- The bar at an offset; outside the run there is none. -/
def at? (ctx : Context) (offset : Int) : Option Snapshot :=
  match offset with
  | .ofNat n => ctx.recent[n]?
  | .negSucc _ => none

/-- The current bar. -/
def current (ctx : Context) : Option Snapshot := ctx.at? 0

/-- A field of an indicator at an offset. Without an indicator or a field there is nothing to read. -/
def indicator (ctx : Context) (ref : Option Int) (field : String) (offset : Int) :
    Except ReadError (Option Float) :=
  match ref with
  | none => .ok none
  | some ref =>
    if field.isEmpty then .ok none
    else match ctx.at? offset with
      | none => .ok none
      | some bar => bar.indicator ref field

/-- A price at an offset. -/
def price (ctx : Context) (field : PriceField) (offset : Int) : Except ReadError (Option Float) :=
  match ctx.at? offset with
  | none => .ok none
  | some bar => bar.price.get field

/-- A price by its stored name; no other name has a price. -/
def priceNamed (ctx : Context) (name : String) (offset : Int) : Except ReadError (Option Float) :=
  match PriceField.ofName? name with
  | none => .ok none
  | some field => ctx.price field offset

/-- A metric of the position, which is always that of the current bar. -/
def metric (ctx : Context) (name : String) : Except ReadError (Option Float) :=
  match ctx.current with
  | none => .ok none
  | some bar => if name.isEmpty then .ok none else bar.metric name

end Context

/-- A rolling run of bars. It has room for a bar and the one before it at least. -/
structure Window where
  capacity : Nat
  recent : List Snapshot
  two_le_capacity : 2 ≤ capacity
  length_le_capacity : recent.length ≤ capacity

/-- Why there is no window of a capacity. -/
inductive WindowError where
  /-- It has no room for two bars. -/
  | tooSmall
  /-- It has room for more bars than can be counted. -/
  | tooLarge
deriving DecidableEq, Repr

/-- The error in words, if there are words for it. -/
def WindowError.message : WindowError → String
  | .tooSmall => "Snapshot buffer needs room for at least two bars"
  | .tooLarge => ""

/-- The greatest capacity, which is the greatest signed number of 64 bits. -/
def greatestCapacity : Int := Nat.pow 2 63 - 1

/-- The least window in which every leaf sees all it reads: the deepest offset and the bar before it. -/
def leastWindow : Nat := maxOffset + 2

namespace Window

/-- An empty window. -/
def ofCapacity (capacity : Int) : Except WindowError Window :=
  if h : 2 ≤ capacity then
    if capacity ≤ greatestCapacity then
      .ok { capacity := capacity.toNat, recent := [], two_le_capacity := by omega,
            length_le_capacity := by simp }
    else .error .tooLarge
  else .error .tooSmall

/-- Adds a bar; the oldest one leaves a window that is full. -/
def push (w : Window) (bar : Snapshot) : Window :=
  { w with recent := (bar :: w.recent).take w.capacity, length_le_capacity := List.length_take_le .. }

/-- Removes all bars. -/
def clear (w : Window) : Window := { w with recent := [], length_le_capacity := by simp }

/-- The number of bars. -/
def size (w : Window) : Nat := w.recent.length

/-- The bars that can be seen. -/
def context (w : Window) : Context := ⟨w.recent⟩

@[simp] theorem recent_push (w : Window) (bar : Snapshot) :
    (w.push bar).recent = (bar :: w.recent).take w.capacity := rfl

@[simp] theorem capacity_push (w : Window) (bar : Snapshot) : (w.push bar).capacity = w.capacity := rfl

@[simp] theorem recent_clear (w : Window) : w.clear.recent = [] := rfl

end Window

end TradingRules
