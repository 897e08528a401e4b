import TradingRules.Assoc
import TradingRules.Json.Value
import TradingRules.Text.Numeral

/-!
# `Json.Reader` — reading a document

A recursive-descent reader over the characters that remain. A fault is located by the number of characters
that remain where it was seen, which the outermost function turns into a position, a line and a column.

Beyond the standard the reader takes the words `NaN`, `Infinity` and `-Infinity`; of two fields with one key
the later value counts.

## Contents
* `Cause`, `Fault` — why and where reading fails;
* `readString`, `readNumber?` — the lexical forms;
* `readValue` — values, lists and objects;
* `Json.parse` — a whole document, and `SyntaxError.message`.
-/

namespace TradingRules.Json

/-- Why reading fails. -/
inductive Cause where
  | valueExpected
  | nameExpected
  | colonExpected
  | commaExpected
  | extraData
  | unterminatedString
  | controlCharacter
  | invalidEscape
  | invalidCodeUnit
  | byteOrderMark
  /-- An integer has more digits than may be read. -/
  | longInteger (limit digits : Nat)
deriving DecidableEq, Repr

/-- A cause, and how many characters remain from the place it names. -/
structure Fault where
  cause : Cause
  remaining : Nat
deriving DecidableEq, Repr

/-- A fault at the first of the given characters. -/
def faultAt {α : Type} (cause : Cause) (rest : List Char) : Except Fault α := .error ⟨cause, rest.length⟩

/-! ## White space -/

/-- The white space of JSON. -/
def isGap (c : Char) : Bool := c = ' ' ∨ c = '\t' ∨ c = '\n' ∨ c = '\r'

/-- The characters from the first one that is no white space. -/
def skipGap (cs : List Char) : List Char := cs.dropWhile isGap

/-! ## Text -/

/-- The value of a hexadecimal digit. -/
def hexValue? (c : Char) : Option Nat :=
  if c.isDigit then some (c.toNat - 48)
  else if 'a' ≤ c ∧ c ≤ 'f' then some (c.toNat - 87)
  else if 'A' ≤ c ∧ c ≤ 'F' then some (c.toNat - 55)
  else none

/-- The code unit written by four hexadecimal digits. -/
def codeUnit? (a b c d : Char) : Option Nat := do
  return (((← hexValue? a) * 16 + (← hexValue? b)) * 16 + (← hexValue? c)) * 16 + (← hexValue? d)

/-- The character a backslash and a letter stand for. -/
def escaped? (c : Char) : Option Char :=
  match c with
  | '"' => some '"'
  | '\\' => some '\\'
  | '/' => some '/'
  | 'b' => some '\x08'
  | 'f' => some '\x0c'
  | 'n' => some '\n'
  | 'r' => some '\r'
  | 't' => some '\t'
  | _ => none

/-- The code unit is the first half of a pair. -/
def isHighHalf (n : Nat) : Bool := 0xD800 ≤ n && n ≤ 0xDBFF

/-- The code unit is the second half of a pair. -/
def isLowHalf (n : Nat) : Bool := 0xDC00 ≤ n && n ≤ 0xDFFF

/-- The character of a pair of halves. -/
def joinHalves (high low : Nat) : Char := Char.ofNat (0x10000 + (high - 0xD800) * 0x400 + (low - 0xDC00))

/-- The character of a code unit. Half a pair on its own has none and reads as the replacement character. -/
def unitChar (n : Nat) : Char :=
  if isHighHalf n || isLowHalf n then '\ufffd' else Char.ofNat n

/-- The characters of a list of code units and code points: neighbouring halves make one character. -/
def joinUnits : List Nat → List Char
  | [] => []
  | [n] => [unitChar n]
  | n :: m :: rest =>
    if isHighHalf n && isLowHalf m then joinHalves n m :: joinUnits rest
    else unitChar n :: joinUnits (m :: rest)

/-- The code units of text up to its closing quote; `opening` is what remains from the opening one. A code
unit in digits needs a character after it. -/
def readUnits (opening : Nat) : List Char → Except Fault (List Nat × List Char)
  | [] => .error ⟨.unterminatedString, opening⟩
  | '"' :: rest => .ok ([], rest)
  | '\\' :: [] => .error ⟨.unterminatedString, opening⟩
  | '\\' :: 'u' :: a :: b :: c :: d :: next :: rest =>
    match codeUnit? a b c d with
    | none => .error ⟨.invalidCodeUnit, rest.length + 6⟩
    | some n => (readUnits opening (next :: rest)).map fun (units, rest) => (n :: units, rest)
  | '\\' :: 'u' :: rest => .error ⟨.invalidCodeUnit, rest.length + 1⟩
  | '\\' :: c :: rest =>
    match escaped? c with
    | some e => (readUnits opening rest).map fun (units, rest) => (e.toNat :: units, rest)
    | none => .error ⟨.invalidEscape, rest.length + 2⟩
  | c :: rest =>
    if c.toNat < 0x20 then .error ⟨.controlCharacter, rest.length + 1⟩
    else (readUnits opening rest).map fun (units, rest) => (c.toNat :: units, rest)

/-- Text after its opening quote. -/
def readString (cs : List Char) : Except Fault (String × List Char) :=
  (readUnits (cs.length + 1) cs).map fun (units, rest) => (String.ofList (joinUnits units), rest)

/-! ## Numbers -/

/-- The fraction after a number's whole digits: a point and at least one digit. -/
def takeFraction : List Char → List Char × List Char
  | '.' :: d :: rest =>
    if d.isDigit then (d :: rest.takeWhile Char.isDigit, rest.dropWhile Char.isDigit)
    else ([], '.' :: d :: rest)
  | rest => ([], rest)

/-- The exponent after a number's digits: `e`, a sign and at least one digit. -/
def takeExponent (cs : List Char) : Option Int × List Char :=
  match cs with
  | [] => (none, [])
  | c :: rest =>
    if c = 'e' ∨ c = 'E' then
      let (negative, r) := Text.takeSign rest
      match Text.digits? (r.takeWhile Char.isDigit) with
      | some n => (some (if negative then -(n : Int) else n), r.dropWhile Char.isDigit)
      | none => (none, cs)
    else (none, cs)

/-- A minus sign, if there is one, and the rest. -/
def takeMinus : List Char → Bool × List Char
  | '-' :: rest => (true, rest)
  | rest => (false, rest)

/-- The digits before the point: a zero alone, or a run that does not start with one. -/
def takeWhole : List Char → List Char × List Char
  | '0' :: rest => (['0'], rest)
  | cs => (cs.takeWhile Char.isDigit, cs.dropWhile Char.isDigit)

/-- A number, if the characters start with one. -/
def readNumber? (limit : DigitLimit) (cs : List Char) : Option (Except Fault (Json × List Char)) :=
  let (negative, r) := takeMinus cs
  let (whole, r) := takeWhole r
  if whole.isEmpty then none
  else
    let (part, r) := takeFraction r
    let (power, r) := takeExponent r
    let coefficient := Nat.ofDigitChars 10 (whole ++ part) 0
    if part.isEmpty ∧ power.isNone then
      match limit.exceeded? whole.length with
      | some limit => some (faultAt (.longInteger limit whole.length) cs)
      | none => some (.ok (.int (if negative then -(coefficient : Int) else coefficient), r))
    else
      let x := Decimal.nearest ⟨coefficient, power.getD 0 - part.length⟩
      some (.ok (.float (if negative then -x else x), r))

/-- The words that are values. -/
def words : List (List Char × Json) :=
  [("null".toList, .null), ("true".toList, .bool true), ("false".toList, .bool false),
   ("NaN".toList, .float (0.0 / 0.0)), ("Infinity".toList, .float infinity),
   ("-Infinity".toList, .float (-infinity))]

/-- A word, if the characters start with one. -/
def readWord? (cs : List Char) : Option (Json × List Char) :=
  words.findSome? fun (word, value) =>
    if word.isPrefixOf cs then some (value, cs.drop word.length) else none

/-- A word or a number. -/
def readScalar (limit : DigitLimit) (cs : List Char) : Except Fault (Json × List Char) :=
  match readWord? cs with
  | some step => .ok step
  | none => (readNumber? limit cs).getD (faultAt .valueExpected cs)

/-! ## Values -/

/-- What follows an item: a comma before the next one, or the closing bracket. -/
inductive Next where
  | more (rest : List Char)
  | done (rest : List Char)

/-- Reads what follows an item in the brackets that `closing` ends. -/
def readNext (closing : Char) (cs : List Char) : Except Fault Next :=
  match skipGap cs with
  | [] => faultAt .commaExpected []
  | c :: rest =>
    if c = closing then .ok (.done rest)
    else if c = ',' then .ok (.more (skipGap rest))
    else faultAt .commaExpected (c :: rest)

/-- The name of a field and the colon after it. -/
def readName : List Char → Except Fault (String × List Char)
  | '"' :: rest => do
    let (name, rest) ← readString rest
    match skipGap rest with
    | ':' :: rest => .ok (name, skipGap rest)
    | rest => faultAt .colonExpected rest
  | cs => faultAt .nameExpected cs

mutual

/-- A value. Of two calls in a row at least one consumes a character, so twice as many calls as there are
characters are enough; `fuel` bounds their nesting. -/
def readValue (limit : DigitLimit) (fuel : Nat) (cs : List Char) : Except Fault (Json × List Char) :=
  match fuel with
  | 0 => faultAt .valueExpected cs
  | fuel + 1 =>
    match cs with
    | '"' :: rest => (readString rest).map fun (s, rest) => (.str s, rest)
    | '[' :: rest =>
      match skipGap rest with
      | ']' :: rest => .ok (.arr [], rest)
      | rest => (readItems limit fuel rest).map fun (items, rest) => (.arr items, rest)
    | '{' :: rest =>
      match skipGap rest with
      | '}' :: rest => .ok (.obj [], rest)
      | rest => (readFields limit fuel [] rest).map fun (fields, rest) => (.obj fields, rest)
    | cs => readScalar limit cs

/-- The items of a list, up to its closing bracket. -/
def readItems (limit : DigitLimit) (fuel : Nat) (cs : List Char) : Except Fault (List Json × List Char) :=
  match fuel with
  | 0 => faultAt .valueExpected cs
  | fuel + 1 => do
    let (item, rest) ← readValue limit fuel cs
    match ← readNext ']' rest with
    | .done rest => .ok ([item], rest)
    | .more rest =>
      let (items, rest) ← readItems limit fuel rest
      .ok (item :: items, rest)

/-- The fields of an object, up to its closing bracket, put into those already read. -/
def readFields (limit : DigitLimit) (fuel : Nat) (fields : List (String × Json)) (cs : List Char) :
    Except Fault (List (String × Json) × List Char) :=
  match fuel with
  | 0 => faultAt .nameExpected cs
  | fuel + 1 => do
    let (name, rest) ← readName cs
    let (value, rest) ← readValue limit fuel rest
    let fields := Assoc.insert fields name value
    match ← readNext '}' rest with
    | .done rest => .ok (fields, rest)
    | .more rest => readFields limit fuel fields rest

end

/-! ## Documents -/

/-- A document: one value, with white space around it. -/
def readDocument (limit : DigitLimit) (cs : List Char) : Except Fault Json :=
  match cs with
  | '\ufeff' :: _ => faultAt .byteOrderMark cs
  | _ => do
    let (value, rest) ← readValue limit (2 * cs.length + 1) (skipGap cs)
    match skipGap rest with
    | [] => .ok value
    | rest => faultAt .extraData rest

/-- A cause and its place: the position counts characters from zero, line and column from one. -/
structure SyntaxError where
  cause : Cause
  position : Nat
  line : Nat
  column : Nat
deriving DecidableEq, Repr

/-- Places a fault in the text in which it was found. -/
def Fault.locate (cs : List Char) (fault : Fault) : SyntaxError :=
  let before := cs.take (cs.length - fault.remaining)
  { cause := fault.cause
    position := before.length
    line := before.count '\n' + 1
    column := (before.reverse.takeWhile (· != '\n')).length + 1 }

/-- Reads a document. -/
def parse (limit : DigitLimit) (text : String) : Except SyntaxError Json :=
  (readDocument limit text.toList).mapError (·.locate text.toList)

/-- The cause in words. -/
def Cause.message : Cause → String
  | .valueExpected => "Expecting value"
  | .nameExpected => "Expecting property name enclosed in double quotes"
  | .colonExpected => "Expecting ':' delimiter"
  | .commaExpected => "Expecting ',' delimiter"
  | .extraData => "Extra data"
  | .unterminatedString => "Unterminated string starting at"
  | .controlCharacter => "Invalid control character at"
  | .invalidEscape => "Invalid \\escape"
  | .invalidCodeUnit => "Invalid \\uXXXX escape"
  | .byteOrderMark => "Unexpected UTF-8 BOM (decode using utf-8-sig)"
  | .longInteger limit digits =>
    s!"Exceeds the limit ({limit} digits) for integer string conversion: value has {digits} digits"
      ++ "; use sys.set_int_max_str_digits() to increase the limit"

/-- The cause and the place in words. -/
def SyntaxError.message (e : SyntaxError) : String :=
  s!"{e.cause.message}: line {e.line} column {e.column} (char {e.position})"

end TradingRules.Json
