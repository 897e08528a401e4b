import TradingRules.Assoc
import TradingRules.Condition.Basic
import TradingRules.Market.Reading
import TradingRules.Timestamp

/-!
# `Market.Snapshot` — one bar

A snapshot holds all that may be read of one bar: its time and, as they were given, its prices, the fields of
its indicators and the metrics of the position at that time. They are read when a condition asks for them. A
snapshot that is made from raw parts has its prices read beforehand, so that they are numbers or missing.
-/

namespace TradingRules

/-- The four prices of a bar as they were given. -/
structure PriceBar where
  opening : Json := .null
  highest : Json := .null
  lowest : Json := .null
  closing : Json := .null
deriving DecidableEq, Inhabited

namespace PriceBar

/-- One of the prices as it was given. -/
def given (p : PriceBar) : PriceField → Json
  | .closing => p.closing
  | .opening => p.opening
  | .highest => p.highest
  | .lowest => p.lowest

/-- One of the prices as a reading. -/
def get (p : PriceBar) (field : PriceField) : Except ReadError (Option Float) := (p.given field).reading

/-- Reads the prices among the fields of a raw bar. The readings stand in place of what was given. -/
def read (fields : List (String × Json)) : Except ReadError PriceBar := do
  let opening ← fieldReading fields "open"
  let highest ← fieldReading fields "high"
  let lowest ← fieldReading fields "low"
  let closing ← fieldReading fields "close"
  return {
    opening := numberJson opening
    highest := numberJson highest
    lowest := numberJson lowest
    closing := numberJson closing }

end PriceBar

/-- One bar. An indicator's entry is its fields, or null where it has none. -/
structure Snapshot where
  timestamp : Option Timestamp := none
  indicators : List (Int × Json) := []
  price : PriceBar := {}
  position : Json := .obj []
deriving DecidableEq, Inhabited

namespace Snapshot

/-- The close of a bar whose prices were read beforehand: a number, or missing. -/
def close (s : Snapshot) : Option Float :=
  match s.price.closing with
  | .float x => some x
  | _ => none

/-- A field of an indicator. -/
def indicator (s : Snapshot) (ref : Int) (field : String) : Except ReadError (Option Float) :=
  match s.indicators.lookup ref with
  | none | some .null => .ok none
  | some (.obj fields) => fieldReading fields field
  | some _ => .error .notAnObject

/-- A metric of the position. -/
def metric (s : Snapshot) (name : String) : Except ReadError (Option Float) :=
  match s.position with
  | .obj fields => fieldReading fields name
  | _ => .error .notAnObject

/-- The fields of an object; a value that is not given has none. -/
def fieldsOf (value : Json) : Except ReadError (List (String × Json)) :=
  match value with
  | .obj fields => .ok fields
  | value => if value.isUnset then .ok [] else .error .notAnObject

/-- The entries of indicators under their numbers. A key that is no number is passed over, and of two keys
with one number the later entry counts. -/
def numbered (fields : List (String × Json)) : List (Int × Json) :=
  fields.foldl (fun entries (key, entry) =>
    match Text.integer? (Text.anyScript key.toList) with
    | some ref => Assoc.insert entries ref entry
    | none => entries) []

/-- A snapshot from raw parts. -/
def ofRaw (timestamp : Option Timestamp) (indicators price position : Json) : Except ReadError Snapshot := do
  let price ← PriceBar.read (← fieldsOf price)
  let indicators ← fieldsOf indicators
  return {
    timestamp
    indicators := numbered indicators
    price
    position := if position.isUnset then .obj [] else position }

end Snapshot

end TradingRules
