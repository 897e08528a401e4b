import TradingRules.Config.Settings
import TradingRules.Json.Message
import TradingRules.Text.Digit
import TradingRules.Text.Word

/-!
# `Config.Logging` — what the log's settings set up

The log writes to a file, to the console, to both or to neither. A handler is described by what it writes
where; nothing is opened here. The format of log lines has to name at least one value to be filled in.

## Contents
* `Format.isValid` — formats;
* `levelNumber` — levels as numbers;
* `Handler`, `LogPlan.handlersOf` — the handlers of the settings;
* `LogPlan.plain` — a plain set-up without settings;
* `Log` — the log in use: `configure`, `request`, `reset`.
-/

namespace TradingRules

/-- How setting up a log fails. -/
inductive LogError where
  /-- A format names no value to be filled in. -/
  | invalidFormat (format : String)
  /-- The name of a level is not known. -/
  | unknownLevel (name : String)
  /-- A level is no name. -/
  | levelNotText
  /-- A format, a path or a level is of the wrong kind. -/
  | wrongType
deriving DecidableEq, Repr

/-- The error in words. Two of its causes have none. -/
def LogError.message : LogError → String
  | .invalidFormat format => "Invalid format '" ++ format ++ "' for '%' style"
  | .unknownLevel name => "Unknown level: " ++ (Json.str name).quote
  | .levelNotText | .wrongType => ""

/-! ## Formats -/

namespace Format

/-- A decimal digit of any script. -/
def isAnyDigit (c : Char) : Bool := (Text.digitValue? c).isSome

/-- A flag before the width of a value. -/
def isFlag (c : Char) : Bool := c == '#' || c == '0' || c == '+' || c == ' ' || c == '-'

/-- A letter that ends the place of a value, as a capital or not. Three letters outside ASCII differ from one of
these in nothing but case. -/
def isConversion (c : Char) : Bool := "diouxefgcrsa%İıſ".toList.contains c.toLower

/-- The characters after a width: a star, digits or nothing. -/
def skipWidth : List Char → List Char
  | '*' :: rest => rest
  | cs => cs.dropWhile isAnyDigit

/-- The characters after a precision: a point and a star or digits, or nothing. -/
def skipPrecision : List Char → List Char
  | '.' :: '*' :: rest => rest
  | '.' :: c :: rest => if isAnyDigit c then rest.dropWhile isAnyDigit else '.' :: c :: rest
  | cs => cs

/-- The characters start with the place of a named value. -/
def startsWithPlace : List Char → Bool
  | '%' :: '(' :: rest =>
    match rest.dropWhile Text.isWordChar with
    | ')' :: after =>
      rest.head?.any Text.isWordChar
        && (skipPrecision (skipWidth (after.dropWhile isFlag))).head?.any isConversion
    | _ => false
  | _ => false

/-- Some named value has its place in the format. -/
def isValid : List Char → Bool
  | [] => false
  | c :: rest => startsWithPlace (c :: rest) || isValid rest

/-- The format that only writes the message. -/
def messageOnly : String := "%(message)s"

/-- A format that is given; one that is not writes the message only. -/
def read (value : Json) : Except LogError String :=
  if value.isUnset then .ok messageOnly
  else match value with
    | .str format => if isValid format.toList then .ok format else .error (.invalidFormat format)
    | _ => .error .wrongType

end Format

/-! ## Levels -/

/-- The levels by name. -/
def levelNumbers : List (String × Int) :=
  [("CRITICAL", 50), ("FATAL", 50), ("ERROR", 40), ("WARNING", 30), ("WARN", 30), ("INFO", 20), ("DEBUG", 10),
   ("NOTSET", 0)]

/-- The level of a name, in capitals or not; a name that is not known has that of information. -/
def levelNumber (name : String) : Int := (levelNumbers.lookup (Text.capitals name)).getD 20

/-- Names in capitals that stand for something else than a level, and how it fails to take that for one: a format
and a table. -/
def otherConstants : List (String × LogError) :=
  [("BASIC_FORMAT", .unknownLevel "%(levelname)s:%(name)s:%(message)s"), ("_STYLES", .wrongType)]

/-- The level of a name that stands for nothing else. -/
def levelOf (name : String) : Except LogError Int :=
  match otherConstants.lookup (Text.capitals name) with
  | some e => .error e
  | none => .ok (levelNumber name)

/-- The level a value names. -/
def readLevel : Json → Except LogError Int
  | .str name => levelOf name
  | _ => .error .levelNotText

/-! ## Handlers -/

/-- Where log lines go, from which level on, and in which format. -/
inductive Handler where
  /-- A file that is begun anew every midnight, of which some number is kept. -/
  | file (level : Int) (format : String) (backups : Json) (path : String)
  | console (level : Int) (format : String)
deriving DecidableEq

/-- The suffix of a file that is kept, as a format of dates. -/
def keptFileSuffix : String := "%Y-%m-%d"

/-- The level of a log and its handlers. -/
structure LogPlan where
  level : Int
  handlers : List Handler
deriving DecidableEq, Inhabited

/-- The parts of a path without those that lead nowhere. -/
def pathParts (path : String) : List String :=
  (path.splitOn "/").foldl (fun kept part =>
    if part = "" ∨ part = "." then kept
    else if part = ".." ∧ kept ≠ [] ∧ kept.getLast? ≠ some ".." then kept.dropLast
    else kept ++ [part]) []

/-- A path that is written in the shortest way. -/
def tidyPath (path : String) : String := "/".intercalate (pathParts path)

/-- The file of a path, which has to be text. -/
def readPath : Json → Except LogError String
  | .str path => .ok (tidyPath path)
  | _ => .error .wrongType

namespace LogPlan

/-- The handler of the file, if it is enabled. -/
def fileHandler (log : LogSettings) (format : String) : Except LogError (List Handler) :=
  if log.fileEnabled.isUnset then .ok []
  else do
    let path ← readPath log.filePath
    let level ← levelOf log.level
    return [.file level format log.backupCount path]

/-- The handler of the console, if it is enabled. -/
def consoleHandler (log : LogSettings) (format : String) : Except LogError (List Handler) :=
  if log.consoleEnabled.isUnset then .ok []
  else do
    let level ← readLevel log.consoleLevel
    return [.console level format]

/-- The handlers of the settings, that of the file first. -/
def handlersOf (log : LogSettings) : Except LogError (List Handler) := do
  let format ← Format.read log.format
  let file ← fileHandler log format
  let console ← consoleHandler log format
  return file ++ console

/-- The level a value asks for: a number, or a name in capitals. -/
def requestedLevel : Json → Except LogError Int
  | .int n => .ok n
  | .str name => match levelNumbers.lookup name with
    | some n => .ok n
    | none => .error (.unknownLevel name)
  | _ => .error .wrongType

/-- A plain log to the console without settings. -/
def plain (level format : Json) : Except LogError LogPlan := do
  let format ← Format.read (if format.isUnset then .str defaultLogFormat else format)
  let level ← requestedLevel level
  return { level, handlers := [.console level format] }

end LogPlan

/-! ## The log in use -/

/-- The library's log as it stands. -/
structure Log where
  plan : LogPlan := { level := 0, handlers := [] }
  /-- It was set up, and not reset since. -/
  ready : Bool := false
deriving DecidableEq, Inhabited

namespace Log

/-- Sets the log up. Where there are no handlers to be had the level is in place and no handler is left. -/
def configure (log : Log) (settings : LogSettings) : Log × Except LogError Unit :=
  match levelOf settings.level with
  | .error e => (log, .error e)
  | .ok level => match LogPlan.handlersOf settings with
    | .ok handlers => ({ plan := { level, handlers }, ready := true }, .ok ())
    | .error e => ({ log with plan := { level, handlers := [] } }, .error e)

/-- Sets the log up unless it is ready. -/
def request (log : Log) (settings : LogSettings) : Log × Except LogError Unit :=
  if log.ready then (log, .ok ()) else log.configure settings

/-- Takes the handlers away, so that the next request sets the log up anew. -/
def reset (log : Log) : Log :=
  if log.ready then { plan := { log.plan with handlers := [] }, ready := false } else log

end Log

/-- The name of the library's log. -/
def rootLogName : String := "signal_rules"

/-- The name of a log: one below that of the library. -/
def logName (name : String) : String :=
  if name = rootLogName ∨ (rootLogName ++ ".").toList.isPrefixOf name.toList then name
  else rootLogName ++ "." ++ name

end TradingRules
