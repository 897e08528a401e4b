import TradingRules.Condition.Basic
import TradingRules.Condition.Issue
import TradingRules.Json.Value
import TradingRules.Text.Numeral

/-!
# `Condition.Decode` — reading a condition from its stored form

Stored documents are read generously: a field's key has two spellings, numbers may stand in text, whole
doubles and truth values count as integers, a field that is missing has its default, and keys that mean
nothing are passed over. Every issue is reported together with its place.

## Contents
* `Key`, `Key.read` — a field under either spelling;
* `readText`, `readInteger`, `readNumber`, … — the kinds of value;
* `Leaf.read` — the fields of a leaf;
* `Condition.ofJson`, `Group.ofJson` — conditions and trees.
-/

namespace TradingRules

/-! ## Fields -/

/-- The two spellings of a field's key. -/
structure Key where
  camel : String
  snake : String
deriving DecidableEq, Repr

/-- A key that is spelled the same way in both. -/
def Key.plain (name : String) : Key := ⟨name, name⟩

/-- The field under either spelling, and the spelling. The first one wins where both are present. -/
def Key.find? (key : Key) (fields : List (String × Json)) : Option (String × Json) :=
  match fields.lookup key.camel with
  | some value => some (key.camel, value)
  | none => (fields.lookup key.snake).map (key.snake, ·)

/-- Reads a field that has a default. -/
def Key.read {α : Type} (key : Key) (default : α) (reader : Json → Checked α)
    (fields : List (String × Json)) : Checked α :=
  match key.find? fields with
  | some (used, value) => (reader value).under (.key used)
  | none => .ok default

/-- Reads a field that has to be there. -/
def Key.require {α : Type} (key : Key) (reader : Json → Checked α) (fields : List (String × Json)) :
    Checked α :=
  match key.find? fields with
  | some (used, value) => (reader value).under (.key used)
  | none => (Checked.fail .missing).under (.key key.camel)

/-! ## Values -/

/-- Text. -/
def readText : Json → Checked String
  | .str s => .ok s
  | _ => .fail .notText

/-- A word of a closed vocabulary. -/
def readName {α : Type} (ofName? : String → Option α) : Json → Checked α
  | .str s => match ofName? s with
    | some value => .ok value
    | none => .fail .unknownName
  | _ => .fail .unknownName

/-- The integer that a whole double stands for, within the range of 64 bits. -/
def integerOfFloat (x : Float) : Checked Int :=
  match Shape.of x with
  | .nan | .infinite _ => .fail .notFinite
  | .finite negative size =>
    let (num, den) := size.fraction
    if num % den ≠ 0 then .fail .fractional
    else if Nat.pow 2 63 ≤ num / den then .fail .oversizedInteger
    else .ok (if negative then -(num / den : Nat) else (num / den : Nat))

/-- An integer, or what counts as one. -/
def readInteger : Json → Checked Int
  | .int n => .ok n
  | .bool b => .ok (if b then 1 else 0)
  | .float x => integerOfFloat x
  | .str s => match Text.wholeNumber? s.toList with
    | some n => .ok n
    | none => .fail .unreadableInteger
  | _ => .fail .notAnInteger

/-- A value that may be null. -/
def readOptional {α : Type} (reader : Json → Checked α) : Json → Checked (Option α)
  | .null => .ok none
  | value => (reader value).map some

/-- An integer that is not negative. -/
def readNatural (value : Json) : Checked Nat :=
  match readInteger value with
  | .ok (.ofNat n) => .ok n
  | .ok (.negSucc _) => .fail .belowMinimum
  | .bad issues => .bad issues

/-- An offset. -/
def readOffset (value : Json) : Checked Offset :=
  match readNatural value with
  | .ok n => if h : n < maxOffset + 1 then .ok ⟨n, h⟩ else .fail .aboveMaximum
  | .bad issues => .bad issues

/-- A double, or what counts as one. -/
def readNumber : Json → Checked Float
  | .float x => .ok x
  | .bool b => .ok (if b then 1.0 else 0.0)
  | .int n => match Decimal.floatOfInt? n with
    | some x => .ok x
    | none => .fail .notANumber
  | .str s => match Text.number? s.toList with
    | some x => .ok x
    | none => .fail .unreadableNumber
  | _ => .fail .notANumber

/-- Two bounds: a list of exactly two numbers. -/
def readPair : Json → Checked (Float × Float)
  | .arr [] =>
    Prod.mk <$> (Checked.fail .missing).under (.index 0) <*> (Checked.fail .missing).under (.index 1)
  | .arr [a] => Prod.mk <$> (readNumber a).under (.index 0) <*> (Checked.fail .missing).under (.index 1)
  | .arr [a, b] => Prod.mk <$> (readNumber a).under (.index 0) <*> (readNumber b).under (.index 1)
  | .arr (_ :: _ :: _ :: _) => .fail .tooMany
  | _ => .fail .notAList

/-- A constant or two bounds. What is neither is reported as both. -/
def readOperand (value : Json) : Checked Operand :=
  match readNumber value, readPair value with
  | .ok x, _ => .ok (.scalar x)
  | .bad _, .ok (a, b) => .ok (.range a b)
  | .bad scalar, .bad pair =>
    .bad (scalar.map (fun i => { i with path := .key "float" :: i.path })
      ++ pair.map (fun i => { i with path := .key "tuple[float, float]" :: i.path }))

/-! ## Leaves -/

/-- The name a stored crossing stands for: older documents use the names of comparisons. -/
def currentCrossingName (name : String) : String :=
  if name = "GT" then Crossing.above.name
  else if name = "LT" then Crossing.below.name
  else name

/-- A stored crossing under its current name; a value that is no text stays as it is. -/
def currentCrossing : Json → Json
  | .str name => .str (currentCrossingName name)
  | value => value

/-- A crossing, under its current or an older name. -/
def readCrossing (value : Json) : Checked Crossing := readName Crossing.ofName? (currentCrossing value)

namespace Key

/-- The indicator that supplies the field. -/
def indicator : Key := ⟨"indicatorRef", "indicator_ref"⟩
/-- The field that is compared. -/
def field : Key := .plain "field"
/-- The comparison or crossing. -/
def operator : Key := .plain "operator"
/-- The constant or the bounds. -/
def value : Key := .plain "value"
/-- The offset of the field. -/
def index : Key := .plain "index"
/-- The indicator that is crossed. -/
def target : Key := ⟨"targetRef", "target_ref"⟩
/-- The field that is crossed. -/
def targetField : Key := ⟨"targetField", "target_field"⟩
/-- The offset of the field that is crossed. -/
def targetIndex : Key := ⟨"targetIndex", "target_index"⟩
/-- The price. -/
def price : Key := ⟨"priceField", "price_field"⟩
/-- The combinator of a group. -/
def logic : Key := .plain "logic"

end Key

/-- The fields of a threshold. -/
def Threshold.read (fields : List (String × Json)) : Checked Threshold :=
  Threshold.mk
    <$> Key.indicator.read none (readOptional readInteger) fields
    <*> Key.field.read "" readText fields
    <*> Key.operator.read .gt (readName Comparison.ofName?) fields
    <*> Key.value.read (.scalar 0.0) readOperand fields
    <*> Key.index.read Offset.current readOffset fields

/-- The fields of a crossing. -/
def Cross.read (fields : List (String × Json)) : Checked Cross :=
  Cross.mk
    <$> Key.indicator.read none (readOptional readInteger) fields
    <*> Key.field.read "" readText fields
    <*> Key.operator.read .above readCrossing fields
    <*> Key.target.read none (readOptional readInteger) fields
    <*> Key.targetField.read none (readOptional readText) fields
    <*> Key.index.read Offset.current readOffset fields
    <*> Key.targetIndex.read Offset.current readOffset fields

/-- The fields of a price test. -/
def PriceTest.read (fields : List (String × Json)) : Checked PriceTest :=
  PriceTest.mk
    <$> Key.indicator.read none (readOptional readInteger) fields
    <*> Key.field.read "" readText fields
    <*> Key.operator.read .gt (readName Comparison.ofName?) fields
    <*> Key.price.read .closing (readName PriceField.ofName?) fields
    <*> Key.index.read Offset.current readOffset fields

/-- The fields of a position test. -/
def PositionTest.read (fields : List (String × Json)) : Checked PositionTest :=
  PositionTest.mk
    <$> Key.field.read "" readText fields
    <*> Key.operator.read .lte (readName Comparison.ofName?) fields
    <*> Key.value.read (.scalar 0.0) readOperand fields

/-- The fields of a leaf of a given kind. -/
def Leaf.read (kind : LeafKind) (fields : List (String × Json)) : Checked Leaf :=
  match kind with
  | .threshold => (Threshold.read fields).map .threshold
  | .cross => (Cross.read fields).map .cross
  | .price => (PriceTest.read fields).map .price
  | .position => (PositionTest.read fields).map .position

/-! ## Trees -/

/-- What a condition's tag says. -/
inductive Tag where
  | group
  | leaf (kind : LeafKind)
  | unknown
  | missing
deriving DecidableEq, Repr

/-- The tag of a stored condition. -/
def Tag.of (fields : List (String × Json)) : Tag :=
  match fields.lookup "type" with
  | none => .missing
  | some (.str name) =>
    if name = groupTag then .group
    else match LeafKind.ofName? name with
      | some kind => .leaf kind
      | none => .unknown
  | some _ => .unknown

/-- The combinator of a stored group. -/
def Logic.read (fields : List (String × Json)) : Checked Logic :=
  Key.logic.read .and (readName Logic.ofName?) fields

namespace Condition

mutual

/-- A condition with its tag. -/
def ofJson : Json → Checked Condition
  | .obj fields =>
    match Tag.of fields with
    | .missing => .fail .untagged
    | .unknown => .fail .unknownTag
    | .leaf kind => (Condition.leaf <$> Leaf.read kind fields).under (.key kind.name)
    | .group => (Condition.group <$> Logic.read fields <*> ofFields fields).under (.key groupTag)
  | _ => .fail .notACondition

/-- The children of a stored group, from the first of its fields that holds them. -/
def ofFields : List (String × Json) → Checked (List Condition)
  | [] => .ok []
  | (key, value) :: fields =>
    if key = "conditions" then (ofList value).under (.key key) else ofFields fields

/-- A list of conditions. -/
def ofList : Json → Checked (List Condition)
  | .arr items => ofItems 0 items
  | _ => .fail .notAList

/-- The conditions of a list from the `i`-th one on. -/
def ofItems (i : Nat) : List Json → Checked (List Condition)
  | [] => .ok []
  | item :: items => List.cons <$> (ofJson item).under (.index i) <*> ofItems (i + 1) items

end

end Condition

/-- The tag of a root, which may be missing but not wrong. -/
def checkRootTag (fields : List (String × Json)) : Checked Unit :=
  match Tag.of fields with
  | .group | .missing => .ok ()
  | _ => (Checked.fail .wrongWord).under (.key "type")

/-- A tree. -/
def Group.ofJson : Json → Checked Group
  | .obj fields =>
    (fun _ logic children => ⟨logic, children⟩)
      <$> checkRootTag fields <*> Logic.read fields <*> Condition.ofFields fields
  | _ => .fail .notAnObject

end TradingRules
