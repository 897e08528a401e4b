import TradingRules.Config.Settings
import TradingRules.Text.Numeral

/-!
# `Config.Environment` — loading settings

Settings are loaded from a default layer, the layer of the environment that is selected, and variables, each
of which replaces one value. A file of variables only adds those that are not set. Loaded settings are kept
until a new load is asked for; a load that fails leaves them as they were.

## Contents
* `Environment` — variables, and `Environment.complete` with those of a file;
* `Variable` — the variables that replace a value, and `Variable.put`;
* `Sources`, `Sources.load` — loading;
* `Session` — loading on demand.
-/

namespace TradingRules

/-- Variables and their values. -/
abbrev Environment := List (String × String)

namespace Environment

/-- Sets a variable, or takes it away. -/
def assign (env : Environment) (name : String) : Option String → Environment
  | some value => Assoc.insert env name value
  | none => env.filter (·.1 ≠ name)

/-- The variables of a file, of which the last one of a name counts. -/
def ofPairs (pairs : List (String × String)) : Environment :=
  pairs.foldl (fun env (name, value) => Assoc.insert env name value) []

/-- Adds the variables of a file that are not set. -/
def complete (env : Environment) (pairs : List (String × String)) : Environment :=
  env ++ (ofPairs pairs).filter fun (name, _) => (env.lookup name).isNone

end Environment

/-- A flag in words. -/
def parseFlag (text : String) : Bool :=
  let word := String.ofList ((Text.trimBoth Text.isSpace text.toList).map Char.toLower)
  ["1", "true", "yes", "on"].contains word

/-- A flag from a value, which has to be text. -/
def readFlag : Json → Except ConfigError Bool
  | .str text => .ok (parseFlag text)
  | _ => .error .notAnObject

/-- A variable that replaces a value of the configuration. -/
inductive Variable where
  | logLevel
  | window
  | fileEnabled
deriving DecidableEq, Repr

namespace Variable

/-- All of them, in the order in which they are put in. -/
def all : List Variable := [.logLevel, .window, .fileEnabled]

/-- The variable's name. -/
def name : Variable → String
  | .logLevel => "LOG_LEVEL"
  | .window => "SIGNAL_RULES_SNAPSHOT_WINDOW"
  | .fileEnabled => "SIGNAL_RULES_LOG_FILE_ENABLED"

/-- The sections that lead to the value it replaces, and the value's key. -/
def path : Variable → List String × String
  | .logLevel => (["app"], "log_level")
  | .window => (["engine"], "snapshot_window")
  | .fileEnabled => (["logging", "file"], "enabled")

/-- The value a text stands for. A window that is no integer stays text, so that the check names it. -/
def parse (v : Variable) (text : String) : Json :=
  match v with
  | .logLevel => .str (Text.capitals text)
  | .window => match Text.integer? (Text.anyScript text.toList) with
    | some n => .int n
    | none => .str text
  | .fileEnabled => .bool (parseFlag text)

/-- Puts a value below sections, which come into being where they are missing. -/
def putAt (key : String) (value : Json) : List String → Json → Except ConfigError Json
  | [], .obj fields => .ok (.obj (Assoc.insert fields key value))
  | [], _ => .error .noEntries
  | name :: names, .obj fields =>
    (putAt key value names ((fields.lookup name).getD (.obj []))).map fun below =>
      .obj (Assoc.insert fields name below)
  | _ :: _, _ => .error .notAnObject

/-- Puts the variable's value into a configuration, if the variable is set. -/
def put (v : Variable) (env : Environment) (config : Json) : Except ConfigError Json :=
  match env.lookup v.name with
  | none => .ok config
  | some text => putAt v.path.2 (v.parse text) v.path.1 config

end Variable

/-- The layers settings are loaded from. A layer that is missing is null. -/
structure Sources where
  base : Json := .null
  overlays : List (String × Json) := []
deriving Inhabited

namespace Sources

/-- The variable that selects an environment. -/
def selector : String := "SIGNAL_RULES_ENV"

/-- The environment that is selected unless another one is. -/
def defaultEnvironment : String := "development"

/-- A layer's document; one that is not given is empty. -/
def document (value : Json) : Json := if value.isUnset then .obj [] else value

/-- The layers laid over each other. -/
def layered (s : Sources) (env : Environment) : Except ConfigError Layer :=
  let selected := (env.lookup selector).getD defaultEnvironment
  Layer.mergeJson (document s.base) (document ((s.overlays.lookup selected).getD .null))

/-- The configuration with the values of the variables. -/
def configure (s : Sources) (env : Environment) : Except ConfigError Json := do
  Variable.all.foldlM (fun config v => v.put env config) (.obj (← s.layered env))

/-- Loads settings. -/
def load (s : Sources) (env : Environment) : Except ConfigError Settings := do
  match ← s.configure env with
  | .obj config => Settings.ofLayer config
  | _ => .error .notAnObject

end Sources

/-- Settings that are loaded on demand and kept. -/
structure Session where
  sources : Sources
  /-- The variables of a file, which are added whenever settings are loaded. -/
  file : List (String × String) := []
  environment : Environment := []
  kept : Option Settings := none
deriving Inhabited

namespace Session

/-- Sets and takes away variables. -/
def assign (s : Session) (changes : List (String × Option String)) : Session :=
  { s with environment := changes.foldl (fun env (name, value) => env.assign name value) s.environment }

/-- Loads settings anew. -/
def reload (s : Session) : Session × Except ConfigError Settings :=
  let s := { s with environment := s.environment.complete s.file }
  match s.sources.load s.environment with
  | .ok settings => ({ s with kept := some settings }, .ok settings)
  | .error e => (s, .error e)

/-- The settings that are kept; they are loaded if there are none or if that is asked for. -/
def settings (s : Session) (anew : Bool) : Session × Except ConfigError Settings :=
  match s.kept, anew with
  | some settings, false => (s, .ok settings)
  | _, _ => s.reload

end Session

/-- The layers that come with the library. -/
def Sources.bundled : Sources where
  base := .obj
    [("app", .obj [("log_level", .str "INFO")]),
     ("engine", .obj [("snapshot_window", .int 6)]),
     ("logging", .obj
       [("level", .str "INFO"), ("format", .str defaultLogFormat),
        ("file", .obj [("enabled", .bool false), ("path", .str "logs/signal_rules.log"),
          ("backup_count", .int 5)]),
        ("console", .obj [("enabled", .bool true), ("level", .str "INFO")])])]
  overlays :=
    [("development", .obj
       [("app", .obj [("log_level", .str "DEBUG")]),
        ("logging", .obj [("level", .str "DEBUG"), ("console", .obj [("level", .str "DEBUG")])])]),
     ("production", .obj
       [("logging", .obj
         [("level", .str "INFO"), ("file", .obj [("enabled", .bool true)]),
          ("console", .obj [("level", .str "WARNING")])])])]

end TradingRules
