import TradingRules.Config.Layer
import TradingRules.Market.Window
import TradingRules.Text.Capital

/-!
# `Config.Check` — checking a configuration

Four values of a configuration are checked: the level of the application, the window of the engine, and the
level and the number of backups of the log. All problems are reported together. A section of the wrong kind
ends the check at once, unless the question whether it has an entry can still be answered: text and lists can
be asked whether they contain a key, but not for its value.
-/

namespace TradingRules

/-- The levels a log may have. -/
def logLevels : List String := ["DEBUG", "INFO", "WARNING", "ERROR", "CRITICAL"]

/-- The name of a level, in capitals or not. -/
def isLogLevel (name : String) : Bool := logLevels.contains (Text.capitals name)

/-- A problem in words. -/
def Problem.message : Problem → String
  | .appLevel => "app.log_level must be one of " ++ ", ".intercalate logLevels
  | .window =>
    "engine.snapshot_window must be an integer of at least " ++ toString leastWindow
      ++ " (deepest bar offset plus one bar for crossovers)"
  | .level => "logging.level must be one of " ++ ", ".intercalate logLevels
  | .backupCount => "logging.file.backup_count must be a non-negative integer"

/-- The error in words. Two of its causes have none. -/
def ConfigError.message : ConfigError → String
  | .invalid problems =>
    "Configuration validation failed:\n" ++ "\n".intercalate (problems.map (·.message))
  | .notAPair position length =>
    "dictionary update sequence element #" ++ toString position ++ " has length " ++ toString length
      ++ "; 2 is required"
  | .notAnObject | .noEntries => ""

namespace Config

/-- The characters contain a run of others. -/
def hasRun (run : List Char) : List Char → Bool
  | [] => run.isEmpty
  | c :: rest => run.isPrefixOf (c :: rest) || hasRun run rest

/-- An entry of a section, if there is one. -/
def entry? (key : String) : Json → Except ConfigError (Option Json)
  | .obj fields => .ok (fields.lookup key)
  | .str s => if hasRun key.toList s.toList then .error .noEntries else .ok none
  | .arr items => if items.contains (.str key) then .error .noEntries else .ok none
  | _ => .error .noEntries

/-- A section of an object; one that is missing is empty. -/
def section? (key : String) : Json → Except ConfigError Json
  | .obj fields => .ok ((fields.lookup key).getD (.obj []))
  | _ => .error .notAnObject

/-- A checked value: there or not, or a problem. -/
abbrev Verdict (α : Type) := Except Problem (Option α)

/-- A level. -/
def judgeLevel (problem : Problem) : Option Json → Verdict String
  | none => .ok none
  | some (.str name) => if isLogLevel name then .ok (some name) else .error problem
  | some _ => .error problem

/-- A window in which every leaf sees all it reads. -/
def judgeWindow : Option Json → Verdict Int
  | none => .ok none
  | some (.int n) => if leastWindow ≤ n then .ok (some n) else .error .window
  | some _ => .error .window

/-- A number of backups; a truth value counts as one. -/
def judgeBackups : Option Json → Verdict Json
  | none => .ok none
  | some (.int n) => if 0 ≤ n then .ok (some (.int n)) else .error .backupCount
  | some (.bool b) => .ok (some (.bool b))
  | some _ => .error .backupCount

/-- The checked values of a configuration, where they are given. -/
structure Accepted where
  appLevel : Option String
  window : Option Int
  level : Option String
  backupCount : Option Json
deriving DecidableEq

/-- The problem of a checked value, if it has one. -/
def problemOf {α : Type} : Verdict α → List Problem
  | .ok _ => []
  | .error problem => [problem]

/-- Puts the verdicts together: all values, or all problems. -/
def accept (appLevel : Verdict String) (window : Verdict Int) (level : Verdict String)
    (backupCount : Verdict Json) : Except ConfigError Accepted :=
  match appLevel, window, level, backupCount with
  | .ok appLevel, .ok window, .ok level, .ok backupCount => .ok { appLevel, window, level, backupCount }
  | appLevel, window, level, backupCount =>
    .error (.invalid
      (problemOf appLevel ++ problemOf window ++ problemOf level ++ problemOf backupCount))

/-- Checks a configuration. -/
def check (config : Json) : Except ConfigError Accepted := do
  let app ← section? "app" config
  let appLevel ← entry? "log_level" app
  let engine ← section? "engine" config
  let window ← entry? "snapshot_window" engine
  let logging ← section? "logging" config
  let level ← entry? "level" logging
  let file ← section? "file" logging
  let backupCount ← entry? "backup_count" file
  accept (judgeLevel .appLevel appLevel) (judgeWindow window) (judgeLevel .level level)
    (judgeBackups backupCount)

end Config

end TradingRules
