import TradingRules.Assoc
import TradingRules.Condition.Legacy
import TradingRules.Json.Printer
import TradingRules.Json.Reader
import TradingRules.Rule.Wire

/-!
# `Rule.Storage` — loading and saving

Documents become trees, rules and rule sets here, and the other way round. With `legacy` set, a document is
upgraded first. Loading fails with a `LoadError`: most of its causes are reported in words, and three say
only that a document's parts have the wrong type.

## Contents
* `LoadError` and its messages;
* `Group.load`, `Rule.load`, `RuleSet.load` — from a document;
* `Group.loadText`, `RuleSet.loadFile` — from text;
* `Group.saveText`, `RuleSet.saveText` — to text.
-/

namespace TradingRules

/-- The document that was being read. -/
inductive Subject where
  | tree
  | rule
deriving DecidableEq, Repr

/-- Why a document cannot be loaded. -/
inductive LoadError where
  /-- A tree or a rule has issues. -/
  | invalid (subject : Subject) (issues : List Issue)
  /-- An older document cannot be upgraded. -/
  | legacy (fault : Legacy.Fault)
  /-- Text is no document. `source` names the file it comes from. -/
  | malformed (source : Option String) (error : Json.SyntaxError)
  /-- A file does not exist. -/
  | notFound (source : String)
  /-- A file cannot be written. -/
  | notSaved (target : String)
  /-- A rule or a rule set is no object. -/
  | notAnObject
  /-- The rules of a strategy are neither a list nor anything else that has parts. -/
  | rulesNotAList
deriving DecidableEq

/-- The number of issues, in the title of the kind of document they were found in. -/
def issueCount (title : String) (issues : List Issue) : String :=
  let n := issues.length
  String.ofList (Nat.toDigits 10 n) ++ (if n = 1 then " validation error for " else " validation errors for ")
    ++ title

/-- The title of a kind of document. -/
def Subject.title : Subject → String
  | .tree => "ConditionGroup"
  | .rule => "SignalRule"

/-- How a report on a kind of document begins. -/
def Subject.heading : Subject → String
  | .tree => "Invalid condition tree: "
  | .rule => "Invalid signal rule: "

/-- The error in words. The last two causes and faults of a document's types have none. -/
def LoadError.message : LoadError → String
  | .invalid subject issues => subject.heading ++ issueCount subject.title issues
  | .legacy fault => fault.message
  | .malformed source error =>
    match error.cause, source with
    | .longInteger _ _, _ => error.cause.message
    | _, none => "Invalid JSON: " ++ error.message
    | _, some file => "Invalid JSON in " ++ file ++ ": " ++ error.message
  | .notFound source => "Rules file not found: " ++ source
  | .notSaved target => "Failed to save rules to " ++ target
  | .notAnObject | .rulesNotAList => ""

/-- The error is reported as one of the document: it has a message and names no missing file and no integer
too long to read. -/
def LoadError.isReported : LoadError → Bool
  | .invalid _ _ | .notSaved _ => true
  | .legacy .structuredTag | .legacy .childrenNotAList => false
  | .legacy _ => true
  | .malformed _ error => match error.cause with
    | .longInteger _ _ => false
    | _ => true
  | .notFound _ | .notAnObject | .rulesNotAList => false

/-! ## From a document -/

/-- A checked part as a loaded one. -/
def Checked.toLoad {α : Type} (subject : Subject) : Checked α → Except LoadError α
  | .ok value => .ok value
  | .bad issues => .error (.invalid subject issues)

/-- A document upgraded where that is asked for. -/
def upgradeIf (legacy : Bool) (document : Json) : Except LoadError Json :=
  if legacy then (Legacy.upgrade document).mapError .legacy else .ok document

/-- A tree from a document. -/
def Group.load (legacy : Bool) (document : Json) : Except LoadError Group := do
  (Group.ofJson (← upgradeIf legacy document)).toLoad .tree

/-- The fields of a rule with its tree upgraded, if that is an object. -/
def upgradeRule (fields : List (String × Json)) : Except LoadError (List (String × Json)) :=
  match fields.lookup "conditions" with
  | some (.obj tree) => do return Assoc.insert fields "conditions" (← upgradeIf true (.obj tree))
  | _ => .ok fields

/-- A rule from a document. -/
def Rule.load (legacy : Bool) (document : Json) : Except LoadError Rule :=
  match legacy, document with
  | true, .obj fields => do (Rule.ofJson (.obj (← upgradeRule fields))).toLoad .rule
  | true, _ => .error .notAnObject
  | false, document => (Rule.ofJson document).toLoad .rule

/-- The parts of a value, in order: items, characters of text, or the keys of an object. -/
def parts? : Json → Option (List Json)
  | .arr items => some items
  | .str s => some (s.toList.map fun c => .str c.toString)
  | .obj fields => some (fields.map fun field => .str field.1)
  | _ => none

/-- The rules under one key of a rule set; none if the key is missing. -/
def RuleSet.loadSide (legacy : Bool) (key : Key) (fields : List (String × Json)) :
    Except LoadError (List Rule) :=
  match key.find? fields with
  | none => .ok []
  | some (_, value) => match parts? value with
    | none => .error .rulesNotAList
    | some documents => documents.mapM (Rule.load legacy)

/-- A rule set from a document. -/
def RuleSet.load (legacy : Bool) : Json → Except LoadError RuleSet
  | .obj fields => do
    let buying ← loadSide legacy .buying fields
    let selling ← loadSide legacy .selling fields
    return ⟨buying, selling⟩
  | _ => .error .notAnObject

/-! ## From text -/

/-- A tree from text. -/
def Group.loadText (limit : Json.DigitLimit) (legacy : Bool) (text : String) : Except LoadError Group := do
  Group.load legacy (← (Json.parse limit text).mapError (.malformed none))

/-- A file's text: every way to end a line is a single newline. -/
def normalizeLines : List Char → List Char
  | [] => []
  | '\r' :: '\n' :: rest => '\n' :: normalizeLines rest
  | '\r' :: rest => '\n' :: normalizeLines rest
  | c :: rest => c :: normalizeLines rest

/-- A rule set from a file: its name, and its text if it exists. -/
def RuleSet.loadFile (limit : Json.DigitLimit) (legacy : Bool) (file : String) (text : Option String) :
    Except LoadError RuleSet :=
  match text with
  | none => .error (.notFound file)
  | some text => do
    let text := String.ofList (normalizeLines text.toList)
    RuleSet.load legacy (← (Json.parse limit text).mapError (.malformed (some file)))

/-! ## To text -/

/-- A tree as text. -/
def Group.saveText (limit : Json.DigitLimit) (spacing : Json.Spacing) (g : Group) :
    Except Json.LongInteger String :=
  Json.render limit spacing g.toJson

/-- A rule set as the text of a file. -/
def RuleSet.saveText (limit : Json.DigitLimit) (rules : RuleSet) : Except Json.LongInteger String :=
  Json.render limit .indented rules.toJson

/-- The text that is written to a file, if the file can be written at all. -/
def RuleSet.saveFile (limit : Json.DigitLimit) (file : String) (writable : Bool) (rules : RuleSet) :
    Except LoadError String :=
  if writable then (rules.saveText limit).mapError fun _ => .notSaved file else .error (.notSaved file)

/-- The tree in text, or why the text holds none. A fault that is no fault of the document is passed on. -/
def Group.validateText (limit : Json.DigitLimit) (text : String) : Except LoadError (Except LoadError Group) :=
  match Group.loadText limit false text with
  | .ok g => .ok (.ok g)
  | .error e => if e.isReported then .ok (.error e) else .error e

end TradingRules
