/-!
# `Json.Value` — the value type of stored documents

Rules are stored, and raw readings arrive, as JSON. The value type keeps integers and doubles apart, because
a document that says `70` and one that says `70.0` are read differently, and keeps the fields of an object in
the order in which they were written.

## Contents
* `Json` and its structural equality;
* `Json.field?` — the value of an object's field;
* `Json.isUnset` — null, false, zero and everything empty;
* `Json.scalars` — what a value is made of, without its lists and objects;
* `DigitLimit` — how long an integer may be in text.
-/

namespace TradingRules

/-- A JSON value. Integers have any size. -/
inductive Json where
  | null
  | bool (b : Bool)
  | int (n : Int)
  | float (x : Float)
  | str (s : String)
  | arr (items : List Json)
  | obj (fields : List (String × Json))
deriving Inhabited

namespace Json

/-! ## Equality -/

mutual

/-- Decides whether two values are the same. -/
def decEq : (a b : Json) → Decidable (a = b)
  | .null, b => match b with
    | .null => isTrue rfl
    | .bool _ | .int _ | .float _ | .str _ | .arr _ | .obj _ => isFalse nofun
  | .bool x, b => match b with
    | .bool y => if h : x = y then isTrue (h ▸ rfl) else isFalse fun e => h (by injection e)
    | .null | .int _ | .float _ | .str _ | .arr _ | .obj _ => isFalse nofun
  | .int x, b => match b with
    | .int y => if h : x = y then isTrue (h ▸ rfl) else isFalse fun e => h (by injection e)
    | .null | .bool _ | .float _ | .str _ | .arr _ | .obj _ => isFalse nofun
  | .float x, b => match b with
    | .float y => if h : x = y then isTrue (h ▸ rfl) else isFalse fun e => h (by injection e)
    | .null | .bool _ | .int _ | .str _ | .arr _ | .obj _ => isFalse nofun
  | .str x, b => match b with
    | .str y => if h : x = y then isTrue (h ▸ rfl) else isFalse fun e => h (by injection e)
    | .null | .bool _ | .int _ | .float _ | .arr _ | .obj _ => isFalse nofun
  | .arr x, b => match b with
    | .arr y => match decEqItems x y with
      | isTrue h => isTrue (h ▸ rfl)
      | isFalse h => isFalse fun e => h (by injection e)
    | .null | .bool _ | .int _ | .float _ | .str _ | .obj _ => isFalse nofun
  | .obj x, b => match b with
    | .obj y => match decEqFields x y with
      | isTrue h => isTrue (h ▸ rfl)
      | isFalse h => isFalse fun e => h (by injection e)
    | .null | .bool _ | .int _ | .float _ | .str _ | .arr _ => isFalse nofun

/-- Decides whether two lists of items are the same. -/
def decEqItems : (a b : List Json) → Decidable (a = b)
  | [], [] => isTrue rfl
  | [], _ :: _ => isFalse nofun
  | _ :: _, [] => isFalse nofun
  | x :: xs, y :: ys => match decEq x y, decEqItems xs ys with
    | isTrue h, isTrue t => isTrue (h ▸ t ▸ rfl)
    | isFalse h, _ => isFalse fun e => h (by injection e)
    | _, isFalse t => isFalse fun e => t (by injection e)

/-- Decides whether two lists of fields are the same. -/
def decEqFields : (a b : List (String × Json)) → Decidable (a = b)
  | [], [] => isTrue rfl
  | [], _ :: _ => isFalse nofun
  | _ :: _, [] => isFalse nofun
  | (k, x) :: xs, (l, y) :: ys =>
    if hk : k = l then
      match decEq x y, decEqFields xs ys with
      | isTrue h, isTrue t => isTrue (hk ▸ h ▸ t ▸ rfl)
      | isFalse h, _ => isFalse fun e => h (by injection e with e _; injection e)
      | _, isFalse t => isFalse fun e => t (by injection e)
    else isFalse fun e => hk (by injection e with e _; injection e)

end

instance : DecidableEq Json := decEq

/-! ## Fields -/

/-- The value of an object's field. -/
def field? (key : String) : Json → Option Json
  | .obj fields => fields.lookup key
  | _ => none

/-- The value counts as not given: null, false, a zero, or an empty text, list or object. -/
def isUnset : Json → Bool
  | .null => true
  | .bool b => !b
  | .int n => n == 0
  | .float x => x == 0.0
  | .str s => s.isEmpty
  | .arr items => items.isEmpty
  | .obj fields => fields.isEmpty

/-! ## Scalars -/

mutual

/-- The values inside lists and objects that are neither, in their order. -/
def scalars : Json → List Json
  | .arr items => scalarsOfItems items
  | .obj fields => scalarsOfFields fields
  | value => [value]

/-- The scalars of several items. -/
def scalarsOfItems : List Json → List Json
  | [] => []
  | item :: items => item.scalars ++ scalarsOfItems items

/-- The scalars of several fields. -/
def scalarsOfFields : List (String × Json) → List Json
  | [] => []
  | (_, value) :: fields => value.scalars ++ scalarsOfFields fields

end

/-! ## Integers in text -/

/-- The most digits that an integer in text may have, where a platform sets a bound: converting them takes time
that grows faster than their number. It is minded wherever documents are read and written as text, and nowhere else:
messages, with the rule numbers in them, and numbers that are read from variables are made as if there were none. -/
abbrev DigitLimit := Option Nat

/-- The bound of a platform that was not told of another one. -/
def DigitLimit.standard : DigitLimit := some 4300

/-- The bound that a number of digits exceeds, if it does. -/
def DigitLimit.exceeded? (limit : DigitLimit) (digits : Nat) : Option Nat := limit.filter (· < digits)

end Json

end TradingRules
