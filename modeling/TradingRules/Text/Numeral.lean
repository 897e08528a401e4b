import TradingRules.Decimal.Nearest
import TradingRules.Text.Blank
import TradingRules.Text.Digit

/-!
# `Text.Numeral` — numbers written in text

The grammars of numbers that arrive as text. Readings and environment variables may use the decimal digits
of any script; the fields of a condition use ASCII digits only. In all of them a single underscore may stand
between two digits, and white space around the number is ignored.

## Contents
* `integer?`, `wholeNumber?` — integers, the second with an optional `.000`;
* `number?` — doubles, with the words for infinity and for no number;
* `anyScript` — writes the digits of every script in ASCII.
-/

namespace TradingRules.Text

/-- Drops underscores that stand between two digits and refuses all others. -/
def joinDigits (afterDigit : Bool) : List Char → Option (List Char)
  | [] => some []
  | '_' :: r => if afterDigit && r.head?.any Char.isDigit then joinDigits false r else none
  | c :: r => (joinDigits c.isDigit r).map (c :: ·)

/-- A sign, if there is one, and the rest. -/
def takeSign : List Char → Bool × List Char
  | '-' :: r => (true, r)
  | '+' :: r => (false, r)
  | r => (false, r)

/-- The value of a run of ASCII digits. -/
def digits? (cs : List Char) : Option Nat :=
  if !cs.isEmpty && cs.all Char.isDigit then some (Nat.ofDigitChars 10 cs 0) else none

/-- Writes the digits of every script in ASCII. -/
def anyScript (cs : List Char) : List Char := cs.map asciiDigit

/-- A sign and a run of digits, already without white space. -/
def signedDigits? (cs : List Char) : Option Int := do
  let (negative, r) := takeSign cs
  let n ← (joinDigits false r).bind digits?
  return if negative then -n else n

/-- An integer surrounded by white space. -/
def integer? (cs : List Char) : Option Int := signedDigits? (trimBoth isBlank cs)

/-- An integer surrounded by white space, which a point and one or more zeros may follow. -/
def wholeNumber? (cs : List Char) : Option Int :=
  let body := trimBoth isBlank cs
  match body.dropWhile (· != '.') with
  | [] => signedDigits? body
  | _ :: zeros =>
    if !zeros.isEmpty && zeros.all (· == '0') then signedDigits? (body.takeWhile (· != '.')) else none

/-- The exponent after a number's digits: nothing, or `e`, a sign and digits up to the end. -/
def exponent? : List Char → Option Int
  | [] => some 0
  | c :: r =>
    if c = 'e' ∨ c = 'E' then
      let (negative, ds) := takeSign r
      (digits? ds).map fun n => if negative then -(n : Int) else n
    else none

/-- Digits with a point among, before or after them and an exponent, without a sign. -/
def decimal? (cs : List Char) : Option Decimal :=
  let whole := cs.takeWhile Char.isDigit
  let r := cs.dropWhile Char.isDigit
  let (part, r) := match r with
    | '.' :: r => (r.takeWhile Char.isDigit, r.dropWhile Char.isDigit)
    | r => ([], r)
  if whole.isEmpty && part.isEmpty then none
  else (exponent? r).map fun e => ⟨Nat.ofDigitChars 10 (whole ++ part) 0, e - part.length⟩

/-- The magnitude of a number without a sign: a decimal, infinity, or the word for no number. -/
def magnitude? (cs : List Char) : Option Float :=
  let word := String.ofList (cs.map Char.toLower)
  if word = "inf" ∨ word = "infinity" then some infinity
  else if word = "nan" then some (0.0 / 0.0)
  else (decimal? cs).map Decimal.nearest

/-- A double surrounded by white space. -/
def number? (cs : List Char) : Option Float := do
  let body ← joinDigits false (trimBoth isBlank cs)
  let (negative, r) := takeSign body
  let x ← magnitude? r
  return if negative then -x else x

end TradingRules.Text
