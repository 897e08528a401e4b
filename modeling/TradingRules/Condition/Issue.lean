/-!
# `Condition.Issue` — what is wrong with a stored document, and where

Reading a stored rule reports every issue it finds, not only the first. `Checked` is a value or the issues
that stand in its way; combining two checked parts keeps the issues of both, in order.

## Contents
* `IssueKind`, `Step`, `Issue` — what and where;
* `Checked` and its applicative structure;
* `Checked.under` — places a part's issues inside the whole.
-/

namespace TradingRules

/-- What is wrong with a value. -/
inductive IssueKind where
  /-- The document itself is no object. -/
  | notAnObject
  /-- A fixed word was expected. -/
  | wrongWord
  /-- The word is none of a closed vocabulary. -/
  | unknownName
  /-- A list was expected. -/
  | notAList
  /-- A condition was expected and the value is no object. -/
  | notACondition
  /-- A condition carries no tag. -/
  | untagged
  /-- A condition's tag is none of the known ones. -/
  | unknownTag
  | notText
  | notAnInteger
  /-- Text that does not read as an integer. -/
  | unreadableInteger
  /-- A number with a fraction where an integer was expected. -/
  | fractional
  /-- A whole number that is too large to be taken for an integer. -/
  | oversizedInteger
  /-- Infinity or no number where an integer was expected. -/
  | notFinite
  | belowMinimum
  | aboveMaximum
  | notANumber
  /-- Text that does not read as a number. -/
  | unreadableNumber
  /-- A pair with more than two members. -/
  | tooMany
  | missing
  | notATruthValue
  /-- Text or a number that does not read as a truth value. -/
  | unreadableTruthValue
deriving DecidableEq, Repr

/-- The code under which an issue is reported. -/
def IssueKind.code : IssueKind → String
  | .notAnObject => "model_type"
  | .wrongWord => "literal_error"
  | .unknownName => "enum"
  | .notAList => "tuple_type"
  | .notACondition => "model_attributes_type"
  | .untagged => "union_tag_not_found"
  | .unknownTag => "union_tag_invalid"
  | .notText => "string_type"
  | .notAnInteger => "int_type"
  | .unreadableInteger => "int_parsing"
  | .fractional => "int_from_float"
  | .oversizedInteger => "int_parsing_size"
  | .notFinite => "finite_number"
  | .belowMinimum => "greater_than_equal"
  | .aboveMaximum => "less_than_equal"
  | .notANumber => "float_type"
  | .unreadableNumber => "float_parsing"
  | .tooMany => "too_long"
  | .missing => "missing"
  | .notATruthValue => "bool_type"
  | .unreadableTruthValue => "bool_parsing"

/-- One step from a value into a part of it. -/
inductive Step where
  | key (name : String)
  | index (i : Nat)
deriving DecidableEq, Repr

/-- An issue and the way to it from the document's root. -/
structure Issue where
  kind : IssueKind
  path : List Step
deriving DecidableEq, Repr

/-- A value, or the issues that stand in its way. -/
inductive Checked (α : Type) where
  | ok (value : α)
  | bad (issues : List Issue)
deriving DecidableEq, Repr

namespace Checked

variable {α β : Type}

/-- A single issue with the value at hand. -/
def fail (kind : IssueKind) : Checked α := .bad [⟨kind, []⟩]

/-- Changes the value. -/
def map (f : α → β) : Checked α → Checked β
  | .ok value => .ok (f value)
  | .bad issues => .bad issues

/-- Combines two parts; the issues of the first come before those of the second. -/
def both (f : Checked (α → β)) (x : Checked α) : Checked β :=
  match f, x with
  | .ok f, .ok value => .ok (f value)
  | .ok _, .bad issues => .bad issues
  | .bad issues, .ok _ => .bad issues
  | .bad issues, .bad more => .bad (issues ++ more)

instance : Applicative Checked where
  pure := .ok
  map := map
  seq f x := both f (x ())

/-- Places the issues of a part inside the whole. -/
def under (step : Step) : Checked α → Checked α
  | .ok value => .ok value
  | .bad issues => .bad (issues.map fun i => { i with path := step :: i.path })

/-- The value, without the issues. -/
def toOption : Checked α → Option α
  | .ok value => some value
  | .bad _ => none

@[simp] theorem pure_seq_ok (f : α → β) (x : α) : both (.ok f) (.ok x) = .ok (f x) := rfl

@[simp] theorem under_ok (step : Step) (x : α) : under step (.ok x) = .ok x := rfl

@[simp] theorem map_ok (f : α → β) (x : α) : map f (.ok x) = .ok (f x) := rfl

@[simp] theorem seq_eq_both (f : Checked (α → β)) (x : Checked α) : f <*> x = both f x := rfl

@[simp] theorem map_eq_map (f : α → β) (x : Checked α) : f <$> x = map f x := rfl

end Checked

end TradingRules
