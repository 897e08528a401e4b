import TradingRules.Assoc
import TradingRules.Condition.Basic
import TradingRules.Json.Message

/-!
# `Condition.Legacy` — documents from before groups were tagged

Older documents leave the tag of a group out. `upgrade` puts it in: an object without a tag that has both a
combinator and children is a group; any other object without a tag cannot be classified. Leaves are kept as
they are.
-/

namespace TradingRules.Legacy

/-- Why a document cannot be upgraded. Places are child indices from the root. -/
inductive Fault where
  | notAnObject (path : List Nat)
  | untagged (path : List Nat)
  | unknownTag (tag : Json) (path : List Nat)
  /-- A tag is a list or an object, which cannot be looked up. -/
  | structuredTag
  /-- The children are a number or a truth value. -/
  | childrenNotAList
deriving DecidableEq

/-- A place as messages show it. -/
def showPath (path : List Nat) : String := (Json.arr (path.map fun i : Nat => .int i)).quote

/-- The fault in words. The last two are faults of the document's types and have no message of their own. -/
def Fault.message : Fault → String
  | .notAnObject path => "Condition at path " ++ showPath path ++ " is not an object"
  | .untagged path => "Condition at path " ++ showPath path ++ " has no type tag"
  | .unknownTag tag path => "Unknown condition type " ++ tag.quote ++ " at path " ++ showPath path
  | .structuredTag | .childrenNotAList => ""

/-- What an object is, by its tag or for want of one. -/
inductive Class where
  | group
  | leaf
  | fault (f : Fault)

/-- Classifies an object. A null tag counts as none. -/
def classify (path : List Nat) (fields : List (String × Json)) : Class :=
  match (fields.lookup "type").getD .null with
  | .null =>
    if (fields.lookup "logic").isSome && (fields.lookup "conditions").isSome then .group
    else .fault (.untagged path)
  | .str name =>
    if name = groupTag then .group
    else if (LeafKind.ofName? name).isSome then .leaf
    else .fault (.unknownTag (.str name) path)
  | .arr _ | .obj _ => .fault .structuredTag
  | tag => .fault (.unknownTag tag path)

/-- The fields of a group, with its tag, and with children. -/
def tagGroup (fields : List (String × Json)) : List (String × Json) :=
  let tagged := if (fields.lookup "type").getD .null = .null then Assoc.insert fields "type" (.str groupTag)
    else fields
  if (fields.lookup "conditions").isSome then tagged else Assoc.insert tagged "conditions" (.arr [])

mutual

/-- The document with every group tagged; `path` is its place. -/
def upgradeAt (path : List Nat) : Json → Except Fault Json
  | .obj fields =>
    match classify path fields with
    | .fault f => .error f
    | .leaf => .ok (.obj fields)
    | .group => (upgradeFields path fields).map fun fields => .obj (tagGroup fields)
  | _ => .error (.notAnObject path)

/-- The fields of a group with upgraded children. -/
def upgradeFields (path : List Nat) : List (String × Json) → Except Fault (List (String × Json))
  | [] => .ok []
  | (key, value) :: fields =>
    if key = "conditions" then (upgradeChildren path value).map fun items => (key, .arr items) :: fields
    else (upgradeFields path fields).map ((key, value) :: ·)

/-- The children of a group. Children that are not given are none; text and objects have parts, none of which
is a condition. -/
def upgradeChildren (path : List Nat) : Json → Except Fault (List Json)
  | .arr items => upgradeItems path 0 items
  | .str s => if s.isEmpty then .ok [] else .error (.notAnObject (path ++ [0]))
  | .obj fields => if fields.isEmpty then .ok [] else .error (.notAnObject (path ++ [0]))
  | value => if value.isUnset then .ok [] else .error .childrenNotAList

/-- The children of a group from the `i`-th one on. -/
def upgradeItems (path : List Nat) (i : Nat) : List Json → Except Fault (List Json)
  | [] => .ok []
  | item :: items => do
    let item ← upgradeAt (path ++ [i]) item
    let items ← upgradeItems path (i + 1) items
    return item :: items

end

/-- The document with every group tagged. -/
def upgrade (document : Json) : Except Fault Json := upgradeAt [] document

end TradingRules.Legacy
