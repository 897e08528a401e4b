import TradingRules.Json.Value
import TradingRules.Decimal.Style

/-!
# `Json.Printer` — the text of a value

Values are written on one line, with a blank after every comma and colon, or spread over lines that are
indented by two blanks per level. Numbers are written with the fewest digits that read back; text keeps every
character but the quote, the backslash and the control characters. Writing fails only where the digits of
integers are bounded, at an integer with more of them.
-/

namespace TradingRules.Json

/-- Doubles in JSON text: positional from `1e-4` up to below `1e16`, whole numbers with `.0`. -/
def numberStyle : Decimal.Style where
  precision := none
  positionalFrom := -4
  positionalBelow := 16
  whole := ".0"
  infinity := "Infinity"
  nan := "NaN"

/-- An integer's digits after its sign. -/
def writeInt (n : Int) : List Char :=
  if n < 0 then '-' :: Nat.toDigits 10 n.natAbs else Nat.toDigits 10 n.natAbs

/-- One character inside quotes. -/
def writeChar (c : Char) : List Char :=
  if c = '"' then ['\\', '"']
  else if c = '\\' then ['\\', '\\']
  else if c = '\n' then ['\\', 'n']
  else if c = '\r' then ['\\', 'r']
  else if c = '\t' then ['\\', 't']
  else if c = '\x08' then ['\\', 'b']
  else if c = '\x0c' then ['\\', 'f']
  else if c.toNat < 0x20 then
    ['\\', 'u', '0', '0', Nat.digitChar (c.toNat / 16), Nat.digitChar (c.toNat % 16)]
  else [c]

/-- Text in quotes. -/
def writeString (s : String) : List Char := '"' :: s.toList.flatMap writeChar ++ ['"']

/-- How the items of a list and the fields of an object are set apart. -/
inductive Spacing where
  | compact
  | indented
deriving DecidableEq, Repr

/-- A new line at a level of nesting. -/
def newline (level : Nat) : List Char := '\n' :: List.replicate (2 * level) ' '

/-- What stands after an opening bracket whose items are at `level`. -/
def Spacing.opening (level : Nat) : Spacing → List Char
  | .compact => []
  | .indented => newline level

/-- What stands between two items at `level`. -/
def Spacing.between (level : Nat) : Spacing → List Char
  | .compact => [',', ' ']
  | .indented => ',' :: newline level

/-- What stands before the closing bracket of items at `level`. -/
def Spacing.closing (level : Nat) : Spacing → List Char
  | .compact => []
  | .indented => newline (level - 1)

mutual

/-- The text of a value that stands at a level of nesting. -/
def write (spacing : Spacing) (level : Nat) : Json → List Char
  | .null => ['n', 'u', 'l', 'l']
  | .bool true => ['t', 'r', 'u', 'e']
  | .bool false => ['f', 'a', 'l', 's', 'e']
  | .int n => writeInt n
  | .float x => numberStyle.write x
  | .str s => writeString s
  | .arr [] => ['[', ']']
  | .arr (item :: items) =>
    '[' :: spacing.opening (level + 1) ++ write spacing (level + 1) item
      ++ writeItems spacing (level + 1) items ++ spacing.closing (level + 1) ++ [']']
  | .obj [] => ['{', '}']
  | .obj ((key, value) :: fields) =>
    '{' :: spacing.opening (level + 1) ++ writeString key ++ ':' :: ' ' :: write spacing (level + 1) value
      ++ writeFields spacing (level + 1) fields ++ spacing.closing (level + 1) ++ ['}']

/-- The items after the first one, each after what sets it apart. -/
def writeItems (spacing : Spacing) (level : Nat) : List Json → List Char
  | [] => []
  | item :: items => spacing.between level ++ write spacing level item ++ writeItems spacing level items

/-- The fields after the first one, each after what sets it apart. -/
def writeFields (spacing : Spacing) (level : Nat) : List (String × Json) → List Char
  | [] => []
  | (key, value) :: fields =>
    spacing.between level ++ writeString key ++ ':' :: ' ' :: write spacing level value
      ++ writeFields spacing level fields

end

/-- An integer has more digits than may be written. -/
structure LongInteger where
  limit : Nat
deriving DecidableEq, Repr

/-- The error in words. -/
def LongInteger.message (e : LongInteger) : String :=
  s!"Exceeds the limit ({e.limit} digits) for integer string conversion"
    ++ "; use sys.set_int_max_str_digits() to increase the limit"

/-- The bound that a scalar exceeds as text, if it is an integer with too many digits. -/
def exceededBy? (limit : DigitLimit) : Json → Option Nat
  | .int n => limit.exceeded? (Nat.toDigits 10 n.natAbs).length
  | _ => none

/-- The text of a document. -/
def render (limit : DigitLimit) (spacing : Spacing) (value : Json) : Except LongInteger String :=
  match value.scalars.findSome? (exceededBy? limit) with
  | some limit => .error ⟨limit⟩
  | none => .ok (String.ofList (write spacing 0 value))

end TradingRules.Json
