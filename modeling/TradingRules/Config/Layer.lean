import TradingRules.Assoc
import TradingRules.Json.Value

/-!
# `Config.Layer` — layers of configuration

A configuration is an object of sections. A layer laid over another replaces the values it names; where both
have a section, the sections are laid over each other in turn.

## Contents
* `Layer.merge` — one layer over another;
* `Layer.at?` — the value at a path of keys;
* `ConfigError`, `Problem` — how loading a configuration fails;
* `Layer.ofJson` — the layer a document stands for.
-/

namespace TradingRules

/-- A section or a whole configuration. -/
abbrev Layer := List (String × Json)

/-- A checked value that is not as it should be. -/
inductive Problem where
  | appLevel
  | window
  | level
  | backupCount
deriving DecidableEq, Repr

/-- How loading a configuration fails. -/
inductive ConfigError where
  /-- Checked values are not as they should be. -/
  | invalid (problems : List Problem)
  /-- A section is no object where an object is needed. -/
  | notAnObject
  /-- A value has no entries of the kind that is looked for or put in. -/
  | noEntries
  /-- A list stands for a layer, and one of its members is no pair. -/
  | notAPair (position length : Nat)
deriving DecidableEq, Repr

namespace Layer

mutual

/-- A value of the upper layer over the one below it. -/
def mergeValue (below : Option Json) : Json → Json
  | .obj upper => match below with
    | some (.obj lower) => .obj (merge lower upper)
    | _ => .obj upper
  | value => value

/-- One layer over another. -/
def merge (lower : Layer) : Layer → Layer
  | [] => lower
  | (key, value) :: upper => merge (Assoc.insert lower key (mergeValue (lower.lookup key) value)) upper

end

/-- The value at a path of keys, as long as every step leads into a section. -/
def at? : List String → Json → Option Json
  | [], value => some value
  | key :: keys, value => (value.field? key).bind (at? keys)

/-- The two members of a pair: a list of two, two characters of text, or two keys of an object. -/
def pair? (position : Nat) (value : Json) : Except ConfigError (Json × Json) :=
  let parts : Option (List Json) := match value with
    | .arr items => some items
    | .str s => some (s.toList.map fun c => .str c.toString)
    | .obj fields => some (fields.map fun field => .str field.1)
    | _ => none
  match parts with
  | none => .error .noEntries
  | some [a, b] => .ok (a, b)
  | some parts => .error (.notAPair position parts.length)

/-- Puts the pairs of a list into a layer, from the `i`-th one on. -/
def ofPairs (layer : Layer) (i : Nat) : List Json → Except ConfigError Layer
  | [] => .ok layer
  | item :: items => do
    match ← pair? i item with
    | (.str key, value) => ofPairs (Assoc.insert layer key value) (i + 1) items
    | _ => .error .noEntries

/-- The layer a document stands for: an object, or a list of pairs. -/
def ofJson : Json → Except ConfigError Layer
  | .obj fields => .ok fields
  | .arr items => ofPairs [] 0 items
  | .str s => ofPairs [] 0 (s.toList.map fun c => .str c.toString)
  | _ => .error .noEntries

/-- One document over another. The lower one may be anything that stands for a layer, the upper one has to be
an object. -/
def mergeJson (lower upper : Json) : Except ConfigError Layer := do
  let lower ← ofJson lower
  match upper with
  | .obj upper => return merge lower upper
  | _ => .error .notAnObject

end Layer

end TradingRules
