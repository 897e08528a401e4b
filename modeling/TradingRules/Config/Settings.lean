import TradingRules.Config.Check

/-!
# `Config.Settings` — settings

Settings are what a configuration comes to: checked values under types of their own, values that nothing
checks as they are given, and defaults for whatever is missing. Of the log's values a null counts as missing;
its level falls back to that of the application.
-/

namespace TradingRules

/-- The format of log lines that is used unless another one is given. -/
def defaultLogFormat : String := "%(asctime)s - %(name)s - %(levelname)s - %(message)s"

/-- The settings of the log. Only the level and the number of backups are checked values. -/
structure LogSettings where
  level : String := "INFO"
  format : Json := .str defaultLogFormat
  fileEnabled : Json := .bool false
  filePath : Json := .str "logs/signal_rules.log"
  backupCount : Json := .int 5
  consoleEnabled : Json := .bool true
  consoleLevel : Json := .str "INFO"
deriving DecidableEq, Inhabited

/-- The settings, and the configuration they were made from. -/
structure Settings where
  appLevel : String := "INFO"
  window : Int := leastWindow
  log : LogSettings := {}
  source : Layer := []
deriving DecidableEq, Inhabited

namespace Settings

/-- The value of an object's field; null counts as missing. -/
def given? (key : String) (fields : Layer) : Option Json :=
  match fields.lookup key with
  | some .null => none
  | found => found

/-- A section that has to be an object, and is empty if it is missing. -/
def fieldsOf (key : String) (layer : Layer) : Except ConfigError Layer :=
  match layer.lookup key with
  | none => .ok []
  | some (.obj fields) => .ok fields
  | some _ => .error .notAnObject

/-- The settings of a configuration whose checked values are given. -/
def build (source : Layer) (accepted : Config.Accepted) : Except ConfigError Settings := do
  let default : Settings := {}
  let appLevel := accepted.appLevel.getD default.appLevel
  let _ ← fieldsOf "app" source
  let logging ← fieldsOf "logging" source
  let file ← fieldsOf "file" logging
  let console ← fieldsOf "console" logging
  let _ ← fieldsOf "engine" source
  return {
    appLevel
    window := accepted.window.getD default.window
    log := {
      level := accepted.level.getD appLevel
      format := (given? "format" logging).getD default.log.format
      fileEnabled := (given? "enabled" file).getD default.log.fileEnabled
      filePath := (given? "path" file).getD default.log.filePath
      backupCount := accepted.backupCount.getD default.log.backupCount
      consoleEnabled := (given? "enabled" console).getD default.log.consoleEnabled
      consoleLevel := (given? "level" console).getD default.log.consoleLevel }
    source }

/-- The settings of a configuration. -/
def ofLayer (source : Layer) : Except ConfigError Settings := do
  build source (← Config.check (.obj source))

/-- The parts of a dotted path. -/
def splitPath (key : String) : List String := key.splitOn "."

/-- The value of the configuration at a dotted path. -/
def get? (s : Settings) (key : String) : Option Json := Layer.at? (splitPath key) (.obj s.source)

/-- The settings as an object. -/
def toJson (s : Settings) : Json :=
  .obj [("app", .obj [("log_level", .str s.appLevel)]),
        ("engine", .obj [("snapshot_window", .int s.window)]),
        ("logging", .obj
          [("level", .str s.log.level), ("format", s.log.format), ("file_enabled", s.log.fileEnabled),
           ("file_path", s.log.filePath), ("file_backup_count", s.log.backupCount),
           ("console_enabled", s.log.consoleEnabled), ("console_level", s.log.consoleLevel)])]

end Settings

end TradingRules
