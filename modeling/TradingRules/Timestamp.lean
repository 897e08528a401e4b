import TradingRules.Text.Numeral

/-!
# `Timestamp` — the times of bars

A time of the proleptic Gregorian calendar to the microsecond, with or without an offset from universal time.
Two times can be subtracted only if both have an offset or neither has one.

## Contents
* `Timestamp.parse?`, `Timestamp.write` — the text form `YYYY-MM-DDTHH:MM:SS.ffffff+HH:MM`;
* `Timestamp.since?` — the microseconds between two times.
-/

namespace TradingRules

/-- A time. The offset counts minutes to the east. -/
structure Timestamp where
  year : Nat
  month : Nat
  day : Nat
  hour : Nat := 0
  minute : Nat := 0
  second : Nat := 0
  micro : Nat := 0
  offset : Option Int := none
deriving DecidableEq, Repr

namespace Timestamp

/-! ## Text -/

/-- A number of exactly as many digits as there are characters. -/
def fixed? (cs : List Char) (width : Nat) : Option (Nat × List Char) :=
  let ds := cs.take width
  if ds.length = width then (Text.digits? ds).map (·, cs.drop width) else none

/-- The characters after a given one. -/
def after? (c : Char) : List Char → Option (List Char)
  | d :: rest => if c = d then some rest else none
  | [] => none

/-- A fraction of a second in microseconds; further digits are dropped. -/
def fraction? : List Char → Option (Nat × List Char)
  | '.' :: rest =>
    let ds := rest.takeWhile Char.isDigit
    let six := (ds ++ List.replicate 6 '0').take 6
    if ds.isEmpty then none else (Text.digits? six).map (·, rest.dropWhile Char.isDigit)
  | cs => some (0, cs)

/-- An offset up to the end of the text. -/
def offset? : List Char → Option (Option Int)
  | [] => some none
  | ['Z'] => some (some 0)
  | sign :: rest => do
    let (hours, rest) ← fixed? rest 2
    let (minutes, rest) ← fixed? (← after? ':' rest) 2
    if !rest.isEmpty then none
    else if sign = '+' then some (some (hours * 60 + minutes : Nat))
    else if sign = '-' then some (some (-(hours * 60 + minutes : Nat)))
    else none

/-- The time of day after a date. -/
def clock? (date : Timestamp) : List Char → Option Timestamp
  | [] => some date
  | 'T' :: rest => do
    let (hour, rest) ← fixed? rest 2
    let (minute, rest) ← fixed? (← after? ':' rest) 2
    let (second, rest) ← fixed? (← after? ':' rest) 2
    let (micro, rest) ← fraction? rest
    let offset ← offset? rest
    return { date with hour, minute, second, micro, offset }
  | _ => none

/-- Reads a time; a date alone is its midnight. -/
def parse? (text : String) : Option Timestamp := do
  let (year, rest) ← fixed? text.toList 4
  let (month, rest) ← fixed? (← after? '-' rest) 2
  let (day, rest) ← fixed? (← after? '-' rest) 2
  clock? { year, month, day } rest

/-- A number with zeros in front up to a width. -/
def padded (width n : Nat) : List Char :=
  let ds := Nat.toDigits 10 n
  List.replicate (width - ds.length) '0' ++ ds

/-- An offset; `zero` is written for none at all. -/
def writeOffset (zero : String) : Option Int → List Char
  | none => []
  | some 0 => zero.toList
  | some n =>
    (if n < 0 then '-' else '+') :: padded 2 (n.natAbs / 60) ++ ':' :: padded 2 (n.natAbs % 60)

/-- The text of a time. Microseconds are left out if there are none. -/
def write (zero : String) (t : Timestamp) : String :=
  String.ofList <|
    padded 4 t.year ++ '-' :: padded 2 t.month ++ '-' :: padded 2 t.day
      ++ 'T' :: padded 2 t.hour ++ ':' :: padded 2 t.minute ++ ':' :: padded 2 t.second
      ++ (if t.micro = 0 then [] else '.' :: padded 6 t.micro)
      ++ writeOffset zero t.offset

/-- The text of a time, with an offset of zero in digits. -/
def text (t : Timestamp) : String := t.write "+00:00"

/-- The text of a time, with an offset of zero as the letter Z. -/
def zuluText (t : Timestamp) : String := t.write "Z"

/-! ## Differences -/

/-- The year has a leap day. -/
def isLeap (year : Nat) : Bool := year % 4 = 0 ∧ (year % 100 ≠ 0 ∨ year % 400 = 0)

/-- The days of a common year before each month. -/
def daysBefore (month : Nat) : Nat :=
  ([0, 31, 59, 90, 120, 151, 181, 212, 243, 273, 304, 334][month - 1]?).getD 0

/-- Days since the last day of the year zero. -/
def dayNumber (t : Timestamp) : Nat :=
  let y := t.year - 1
  365 * y + y / 4 - y / 100 + y / 400 + daysBefore t.month
    + (if 2 < t.month ∧ isLeap t.year then 1 else 0) + t.day

/-- Microseconds of universal time, or of local time where there is no offset. -/
def microseconds (t : Timestamp) : Int :=
  let seconds : Int := ((t.dayNumber * 24 + t.hour) * 60 + t.minute) * 60 + t.second
  (seconds - t.offset.getD 0 * 60) * 1000000 + t.micro

/-- The microseconds from one time to another, if they can be compared. Only fixed offsets are told apart: times that
share a time zone whose offset changes in between, and are subtracted by their clocks, are not times in this sense. -/
def since? (later earlier : Timestamp) : Option Int :=
  if later.offset.isSome = earlier.offset.isSome then some (later.microseconds - earlier.microseconds)
  else none

end Timestamp

end TradingRules
