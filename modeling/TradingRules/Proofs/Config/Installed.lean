import TradingRules.Config.Logging
import TradingRules.Proofs.Config.Loading

/-!
# `Proofs.Config.Installed` — a log set up from loaded settings

Of what a log is set up from, only its level and the number of backups were checked when the settings were
loaded. These two never stand in the way. The format, the path of the file and the level of the console were
taken as they are, and each can be one that no handler is made from: `LogSettings.Installable` says what is asked
of them, and `LogPlan.exists_handlersOf_iff` that nothing else is.

A log is configured, requested and reset in any order. From installable settings every one of these calls
succeeds, and every request or configuration leaves one handler for each place where the settings want log lines,
and no other (`LogSettings.SetUp`), whatever came before it; from others it fails and leaves none
(`Sources.loaded_settings_install`).

## Contents
* `Format.Stands` — the format that a value stands for;
* `levelOf_eq_ok`, `levelOf_of_mem` — levels by name;
* `LogSettings.Installable`, `LogSettings.SetUp` — what settings have to be, and what a log is then;
* `LogPlan.handlersOf_eq_ok`, `LogPlan.setUp_of_handlersOf` — the handlers of settings;
* `LogCall`, `Log.perform`, `Log.after` — calls, and what they leave behind;
* `Log.perform_of_installable`, `Log.perform_of_not_installable` — one call;
* `Sources.loaded_settings_install` — calls on a log, with settings that were loaded;
* `Sources.not_always_installed` — settings that are loaded and cannot be installed.
-/

namespace TradingRules

open Fallible

/-! ## Formats and levels -/

namespace Format

/-- Somewhere in the format a named value has its place. -/
def HasPlace (format : String) : Prop := ∃ rest, rest <:+ format.toList ∧ startsWithPlace rest = true

theorem isValid_iff {cs : List Char} : isValid cs = true ↔ ∃ rest, rest <:+ cs ∧ startsWithPlace rest = true := by
  induction cs with
  | nil =>
      refine iff_of_false Bool.false_ne_true ?_
      rintro ⟨rest, hsuffix, hplace⟩
      rw [List.suffix_nil.mp hsuffix] at hplace
      cases hplace
  | cons c cs ih =>
      rw [isValid, Bool.or_eq_true, ih]
      constructor
      · rintro (hplace | ⟨rest, hsuffix, hplace⟩)
        · exact ⟨c :: cs, List.suffix_rfl, hplace⟩
        · exact ⟨rest, hsuffix.trans (List.suffix_cons c cs), hplace⟩
      · rintro ⟨rest, hsuffix, hplace⟩
        rcases List.suffix_cons_iff.mp hsuffix with rfl | hsuffix
        · exact .inl hplace
        · exact .inr ⟨rest, hsuffix, hplace⟩

/-- The value stands for a format: it is text with a place for a named value, or it is nothing at all and stands for
the message. -/
def Stands (value : Json) (format : String) : Prop :=
  if value.isUnset then format = messageOnly else value = .str format ∧ HasPlace format

theorem read_eq_ok {value : Json} {format : String} : read value = .ok format ↔ Stands value format := by
  unfold read Stands
  by_cases hunset : value.isUnset
  · rw [if_pos hunset, if_pos hunset, Except.ok.injEq]
    exact eq_comm
  · rw [if_neg hunset, if_neg hunset]
    cases value with
    | str given =>
        dsimp only
        rw [Json.str.injEq]
        constructor
        · intro h
          split at h
          case isTrue hvalid =>
            cases h
            exact ⟨rfl, isValid_iff.mp hvalid⟩
          case isFalse => cases h
        · rintro ⟨rfl, hplace⟩
          exact if_pos (isValid_iff.mpr hplace)
    | _ =>
        constructor
        · intro h
          cases h
        · rintro ⟨h, -⟩
          cases h

end Format

/-- A name has a level unless it stands for something else, and it has no other. -/
theorem levelOf_eq_ok {name : String} {level : Int} :
    levelOf name = .ok level ↔
      otherConstants.lookup (Text.capitals name) = none ∧ level = levelNumber name := by
  unfold levelOf
  cases otherConstants.lookup (Text.capitals name) with
  | none =>
      rw [Except.ok.injEq, eq_comm]
      exact (and_iff_right rfl).symm
  | some e => exact iff_of_false nofun fun h => nomatch h.1

/-- **A level that was checked is known.** -/
theorem levelOf_of_mem {name : String} (h : Text.capitals name ∈ logLevels) :
    ∃ level, levelOf name = .ok level ∧ levelNumbers.lookup (Text.capitals name) = some level := by
  have hlevels : ∀ word ∈ logLevels, otherConstants.lookup word = none ∧ (levelNumbers.lookup word).isSome := by
    decide
  obtain ⟨hother, hknown⟩ := hlevels _ h
  obtain ⟨level, hlevel⟩ := Option.isSome_iff_exists.mp hknown
  refine ⟨level, levelOf_eq_ok.mpr ⟨hother, ?_⟩, hlevel⟩
  rw [levelNumber, hlevel, Option.getD_some]

theorem readPath_eq_ok {value : Json} {path : String} :
    readPath value = .ok path ↔ ∃ given, value = .str given ∧ path = tidyPath given := by
  cases value with
  | str given =>
      rw [readPath, Except.ok.injEq]
      constructor
      · rintro rfl
        exact ⟨given, rfl, rfl⟩
      · rintro ⟨_, ⟨⟩, rfl⟩
        rfl
  | _ =>
      constructor
      · intro h
        cases h
      · rintro ⟨_, h, -⟩
        cases h

theorem readLevel_eq_ok {value : Json} {level : Int} :
    readLevel value = .ok level ↔ ∃ name, value = .str name ∧ levelOf name = .ok level := by
  cases value with
  | str name =>
      rw [readLevel]
      constructor
      · exact fun h => ⟨name, rfl, h⟩
      · rintro ⟨_, ⟨⟩, h⟩
        exact h
  | _ =>
      constructor
      · intro h
        cases h
      · rintro ⟨_, h, -⟩
        cases h

/-! ## What settings ask for -/

/-- Where log lines may go. -/
inductive LogTarget where
  | file
  | console
deriving DecidableEq

/-- Where a handler sends log lines. -/
def Handler.target : Handler → LogTarget
  | .file .. => .file
  | .console .. => .console

namespace LogSettings

/-- The settings want log lines to go there. -/
def enables (s : LogSettings) : LogTarget → Bool
  | .file => !s.fileEnabled.isUnset
  | .console => !s.consoleEnabled.isUnset

/-- The values that nothing has checked can be used: there is a format, and if log lines are to go to the file its path
is text, and if they are to go to the console its level is text that stands for nothing but a level. Whether the file
can be opened is left out: that is for the platform to say, which may refuse a path for its characters, or for what it
finds there. -/
structure Installable (s : LogSettings) : Prop where
  format : ∃ format, Format.Stands s.format format
  path : s.enables .file = true → ∃ given, s.filePath = .str given
  level : s.enables .console = true →
    ∃ name, s.consoleLevel = .str name ∧ otherConstants.lookup (Text.capitals name) = none

/-- The settings ask for a handler as it is. The file has the level of the log, which is known; the console has one of
its own, which need not be. -/
def Asks (s : LogSettings) : Handler → Prop
  | .file level format backups path =>
      levelNumbers.lookup (Text.capitals s.level) = some level ∧ Format.Stands s.format format ∧
        backups = s.backupCount ∧ ∃ given, s.filePath = .str given ∧ path = tidyPath given
  | .console level format =>
      (∃ name, s.consoleLevel = .str name ∧ level = levelNumber name) ∧ Format.Stands s.format format

/-- **A log is set up as the settings ask**: its level is theirs, there is one handler for each of the places where log
lines are to go, in order, and no other, and every handler is as asked for. -/
structure SetUp (s : LogSettings) (plan : LogPlan) : Prop where
  level : levelNumbers.lookup (Text.capitals s.level) = some plan.level
  targets : plan.handlers.map (·.target) = [LogTarget.file, .console].filter s.enables
  asked : ∀ handler ∈ plan.handlers, s.Asks handler

end LogSettings

/-! ## Handlers -/

namespace LogPlan

variable {s : LogSettings} {format : String} {handlers : List Handler} {level : Int}

/-- There is a handler of the file if it is enabled, and none if it is not. -/
theorem fileHandler_eq_ok (hlevel : levelOf s.level = .ok level) :
    fileHandler s format = .ok handlers ↔
      (s.enables .file = false ∧ handlers = []) ∨
      (s.enables .file = true ∧ ∃ given, s.filePath = .str given ∧
        handlers = [.file level format s.backupCount (tidyPath given)]) := by
  unfold fileHandler LogSettings.enables
  cases hunset : s.fileEnabled.isUnset with
  | true =>
      rw [if_pos rfl, Except.ok.injEq]
      simp [eq_comm]
  | false =>
      rw [if_neg Bool.false_ne_true, bind_eq_ok, hlevel]
      simp only [Bool.not_false, Bool.true_eq_false, false_and, false_or, true_and]
      constructor
      · rintro ⟨path, hpath, h⟩
        obtain ⟨given, hgiven, rfl⟩ := readPath_eq_ok.mp hpath
        exact ⟨given, hgiven, (pure_eq_ok.mp h).symm⟩
      · rintro ⟨given, hgiven, rfl⟩
        exact ⟨tidyPath given, readPath_eq_ok.mpr ⟨given, hgiven, rfl⟩, rfl⟩

/-- There is a handler of the console if it is enabled, and none if it is not. -/
theorem consoleHandler_eq_ok :
    consoleHandler s format = .ok handlers ↔
      (s.enables .console = false ∧ handlers = []) ∨
      (s.enables .console = true ∧ ∃ name, s.consoleLevel = .str name ∧
        otherConstants.lookup (Text.capitals name) = none ∧ handlers = [.console (levelNumber name) format]) := by
  unfold consoleHandler LogSettings.enables
  cases hunset : s.consoleEnabled.isUnset with
  | true =>
      rw [if_pos rfl, Except.ok.injEq]
      simp [eq_comm]
  | false =>
      rw [if_neg Bool.false_ne_true, bind_eq_ok]
      simp only [Bool.not_false, Bool.true_eq_false, false_and, false_or, true_and]
      constructor
      · rintro ⟨level, hlevel, h⟩
        obtain ⟨name, hname, hlevel⟩ := readLevel_eq_ok.mp hlevel
        obtain ⟨hother, rfl⟩ := levelOf_eq_ok.mp hlevel
        exact ⟨name, hname, hother, (pure_eq_ok.mp h).symm⟩
      · rintro ⟨name, hname, hother, rfl⟩
        exact ⟨levelNumber name, readLevel_eq_ok.mpr ⟨name, hname, levelOf_eq_ok.mpr ⟨hother, rfl⟩⟩, rfl⟩

/-- The handler of the file can be made, whatever the format, unless the file is enabled and its path is no text. -/
theorem exists_fileHandler_iff (hlevel : levelOf s.level = .ok level) :
    (∃ handlers, fileHandler s format = .ok handlers) ↔
      (s.enables .file = true → ∃ given, s.filePath = .str given) := by
  simp only [fileHandler_eq_ok hlevel]
  cases s.enables .file with
  | false => exact iff_of_true ⟨[], .inl ⟨rfl, rfl⟩⟩ nofun
  | true => simp

/-- That of the console can be made unless the console is enabled and its level is no text or stands for something
else. -/
theorem exists_consoleHandler_iff :
    (∃ handlers, consoleHandler s format = .ok handlers) ↔
      (s.enables .console = true →
        ∃ name, s.consoleLevel = .str name ∧ otherConstants.lookup (Text.capitals name) = none) := by
  simp only [consoleHandler_eq_ok]
  cases s.enables .console with
  | false => exact iff_of_true ⟨[], .inl ⟨rfl, rfl⟩⟩ nofun
  | true => simp

/-- The handlers of settings are that of the file and that of the console, in one format. -/
theorem handlersOf_eq_ok :
    handlersOf s = .ok handlers ↔
      ∃ format file console, Format.Stands s.format format ∧ fileHandler s format = .ok file ∧
        consoleHandler s format = .ok console ∧ handlers = file ++ console := by
  unfold handlersOf
  rw [bind_eq_ok]
  constructor
  · rintro ⟨format, hformat, h⟩
    obtain ⟨file, hfile, h⟩ := bind_eq_ok.mp h
    obtain ⟨console, hconsole, h⟩ := bind_eq_ok.mp h
    exact ⟨format, file, console, Format.read_eq_ok.mp hformat, hfile, hconsole, (pure_eq_ok.mp h).symm⟩
  · rintro ⟨format, file, console, hformat, hfile, hconsole, rfl⟩
    exact ⟨format, Format.read_eq_ok.mpr hformat,
      bind_eq_ok.mpr ⟨file, hfile, bind_eq_ok.mpr ⟨console, hconsole, rfl⟩⟩⟩

section Checked

variable (hchecked : Text.capitals s.level ∈ logLevels)

include hchecked

/-- **Handlers can be made from installable settings**, and from no others, once the level has been checked. -/
theorem exists_handlersOf_iff : (∃ handlers, handlersOf s = .ok handlers) ↔ s.Installable := by
  obtain ⟨level, hlevel, -⟩ := levelOf_of_mem hchecked
  constructor
  · rintro ⟨handlers, h⟩
    obtain ⟨format, file, console, hformat, hfile, hconsole, -⟩ := handlersOf_eq_ok.mp h
    exact ⟨⟨format, hformat⟩, (exists_fileHandler_iff hlevel).mp ⟨file, hfile⟩,
      exists_consoleHandler_iff.mp ⟨console, hconsole⟩⟩
  · intro h
    obtain ⟨format, hformat⟩ := h.format
    obtain ⟨file, hfile⟩ := (exists_fileHandler_iff hlevel).mpr h.path
    obtain ⟨console, hconsole⟩ := exists_consoleHandler_iff.mpr h.level
    exact ⟨file ++ console, handlersOf_eq_ok.mpr ⟨format, file, console, hformat, hfile, hconsole, rfl⟩⟩

/-- **The handlers of settings are those they ask for**, each of them once. -/
theorem setUp_of_handlersOf (hlevel : levelOf s.level = .ok level) (h : handlersOf s = .ok handlers) :
    s.SetUp { level, handlers } := by
  have hknown : levelNumbers.lookup (Text.capitals s.level) = some level := by
    obtain ⟨found, hfound, hknown⟩ := levelOf_of_mem hchecked
    cases hlevel.symm.trans hfound
    exact hknown
  obtain ⟨format, file, console, hformat, hfile, hconsole, rfl⟩ := handlersOf_eq_ok.mp h
  have hfile : file.map (·.target) = [LogTarget.file].filter s.enables ∧ ∀ handler ∈ file, s.Asks handler := by
    rcases (fileHandler_eq_ok hlevel).mp hfile with ⟨hnot, rfl⟩ | ⟨henabled, given, hgiven, rfl⟩
    · rw [List.filter_cons_of_neg (by simp [hnot])]
      exact ⟨rfl, nofun⟩
    · rw [List.filter_cons_of_pos henabled, List.forall_mem_singleton]
      exact ⟨rfl, hknown, hformat, rfl, given, hgiven, rfl⟩
  have hconsole : console.map (·.target) = [LogTarget.console].filter s.enables ∧
      ∀ handler ∈ console, s.Asks handler := by
    rcases consoleHandler_eq_ok.mp hconsole with ⟨hnot, rfl⟩ | ⟨henabled, name, hname, -, rfl⟩
    · rw [List.filter_cons_of_neg (by simp [hnot])]
      exact ⟨rfl, nofun⟩
    · rw [List.filter_cons_of_pos henabled, List.forall_mem_singleton]
      exact ⟨rfl, ⟨name, hname, rfl⟩, hformat⟩
  refine ⟨hknown, ?targets, List.forall_mem_append.mpr ⟨hfile.2, hconsole.2⟩⟩
  case targets =>
    show (file ++ console).map (·.target) = ([LogTarget.file] ++ [LogTarget.console]).filter s.enables
    rw [List.map_append, List.filter_append, hfile.1, hconsole.1]

end Checked

end LogPlan

/-! ## Calls on a log -/

/-- What may be asked of the log in use. -/
inductive LogCall where
  | configure
  | request
  | reset
deriving DecidableEq

namespace Log

variable {s : LogSettings} {log : Log}

/-- What a call leaves behind, and whether it succeeds. -/
def perform (log : Log) (s : LogSettings) : LogCall → Log × Except LogError Unit
  | .configure => log.configure s
  | .request => log.request s
  | .reset => (log.reset, .ok ())

/-- What several calls leave behind. -/
def after (log : Log) (s : LogSettings) (calls : List LogCall) : Log :=
  calls.foldl (fun log call => (log.perform s call).1) log

/-- The log is not set up, and has no handlers. -/
def Idle (log : Log) : Prop := log.ready = false ∧ log.plan.handlers = []

/-- The log is idle, or it is ready and set up as the settings ask. -/
def Stands (s : LogSettings) (log : Log) : Prop := log.Idle ∨ (log.ready = true ∧ s.SetUp log.plan)

/-- What every call preserves holds after any of them. -/
theorem after_of_perform {P : Log → Prop} (hstep : ∀ log call, P log → P (log.perform s call).1) (h : P log)
    (calls : List LogCall) : P (log.after s calls) := by
  induction calls generalizing log with
  | nil => exact h
  | cons call calls ih => exact ih (hstep log call h)

/-- A log that is reset is idle, if it was or if it was ready. -/
theorem idle_reset (h : log.Idle ∨ log.ready = true) : log.reset.Idle := by
  unfold reset
  rcases h with h | h
  · rwa [h.1, if_neg Bool.false_ne_true]
  · rw [if_pos h]
    exact ⟨rfl, rfl⟩

/-- A request of an idle log configures it. -/
theorem request_of_idle (h : log.Idle) (s : LogSettings) : log.request s = log.configure s := by
  rw [request, h.1, if_neg Bool.false_ne_true]

/-- A request of a log that is ready changes nothing. -/
theorem request_of_ready (h : log.ready = true) (s : LogSettings) : log.request s = (log, .ok ()) := by
  rw [request, if_pos h]

section Checked

variable (hchecked : Text.capitals s.level ∈ logLevels)

include hchecked

/-- Installable settings are installed, whatever the log was before. -/
theorem configure_of_installable (h : s.Installable) (log : Log) :
    (log.configure s).2 = .ok () ∧ (log.configure s).1.ready = true ∧ s.SetUp (log.configure s).1.plan := by
  obtain ⟨level, hlevel, -⟩ := levelOf_of_mem hchecked
  obtain ⟨handlers, hhandlers⟩ := (LogPlan.exists_handlersOf_iff hchecked).mpr h
  have hsetUp : s.SetUp { level, handlers } := LogPlan.setUp_of_handlersOf hchecked hlevel hhandlers
  unfold configure
  rw [hlevel]
  dsimp only
  rw [hhandlers]
  exact ⟨rfl, rfl, hsetUp⟩

/-- Other settings are refused, and leave no handler of those that were there before. -/
theorem configure_of_not_installable (h : ¬s.Installable) (log : Log) :
    (∃ e, (log.configure s).2 = .error e) ∧ (log.configure s).1.ready = log.ready ∧
      (log.configure s).1.plan.handlers = [] := by
  obtain ⟨level, hlevel, -⟩ := levelOf_of_mem hchecked
  unfold configure
  rw [hlevel]
  dsimp only
  cases hhandlers : LogPlan.handlersOf s with
  | ok handlers => exact absurd ((LogPlan.exists_handlersOf_iff hchecked).mp ⟨handlers, hhandlers⟩) h
  | error e => exact ⟨⟨e, rfl⟩, rfl, rfl⟩

/-- **Every call with installable settings succeeds.** The log is idle after a reset, and set up after any other call. -/
theorem perform_of_installable (h : s.Installable) (hlog : log.Stands s) (call : LogCall) :
    (log.perform s call).2 = .ok () ∧ (call = .reset → (log.perform s call).1.Idle) ∧
      (call ≠ .reset → (log.perform s call).1.ready = true ∧ s.SetUp (log.perform s call).1.plan) := by
  obtain ⟨hconfigured, hready, hsetUp⟩ := configure_of_installable hchecked h log
  cases call with
  | configure => exact ⟨hconfigured, nofun, fun _ => ⟨hready, hsetUp⟩⟩
  | request =>
      rw [perform]
      rcases hlog with hidle | hlog
      · rw [request_of_idle hidle]
        exact ⟨hconfigured, nofun, fun _ => ⟨hready, hsetUp⟩⟩
      · rw [request_of_ready hlog.1]
        exact ⟨rfl, nofun, fun _ => hlog⟩
  | reset => exact ⟨rfl, fun _ => idle_reset (hlog.imp_right And.left), fun hnot => absurd rfl hnot⟩

/-- **No call with other settings but a reset succeeds**, and the log stays idle. -/
theorem perform_of_not_installable (h : ¬s.Installable) (hlog : log.Idle) (call : LogCall) :
    (log.perform s call).1.Idle ∧ ((log.perform s call).2 = .ok () ↔ call = .reset) := by
  obtain ⟨⟨e, hrefused⟩, hready, hnone⟩ := configure_of_not_installable hchecked h log
  have hconfigure : (log.configure s).1.Idle ∧ (log.configure s).2 ≠ .ok () := by
    rw [hrefused]
    exact ⟨⟨hready.trans hlog.1, hnone⟩, nofun⟩
  cases call with
  | configure => exact ⟨hconfigure.1, iff_of_false hconfigure.2 nofun⟩
  | request =>
      rw [perform, request_of_idle hlog]
      exact ⟨hconfigure.1, iff_of_false hconfigure.2 nofun⟩
  | reset => exact ⟨idle_reset (.inl hlog), iff_of_true rfl rfl⟩

/-- A log that goes out idle is idle or set up after any calls with installable settings. -/
theorem stands_after (h : s.Installable) (hidle : log.Idle) (calls : List LogCall) : (log.after s calls).Stands s := by
  refine after_of_perform ?_ (.inl hidle) calls
  intro log call hlog
  obtain ⟨-, hreset, hsetUp⟩ := perform_of_installable hchecked h hlog call
  by_cases hcall : call = .reset
  · exact .inl (hreset hcall)
  · exact .inr (hsetUp hcall)

/-- It stays idle with other settings. -/
theorem idle_after (h : ¬s.Installable) (hidle : log.Idle) (calls : List LogCall) : (log.after s calls).Idle :=
  after_of_perform (P := Idle) (fun _ call hlog => (perform_of_not_installable hchecked h hlog call).1) hidle calls

end Checked

end Log

/-! ## Settings that were loaded -/

namespace Sources

variable {sources : Sources} {env : Environment} {s : Settings} {log : Log}

/-- **Which settings can be installed, and what a log is then.** Let settings be loaded, from whatever layers and
variables, and a log that is new, or was reset, be configured, requested and reset any number of times. There are
handlers to be made from the settings exactly if the values that no check has seen can be used. If they can, one call
more succeeds; it leaves one handler for every place that is enabled, as it is asked for, and no other, or none after a
reset. If they cannot, one call more fails unless it is a reset, and it leaves no handler. -/
theorem loaded_settings_install (hload : sources.load env = .ok s) (hidle : log.Idle) (calls : List LogCall)
    (call : LogCall) {next : Log} {outcome : Except LogError Unit}
    (hcall : (log.after s.log calls).perform s.log call = (next, outcome)) :
    ((∃ handlers, LogPlan.handlersOf s.log = .ok handlers) ↔ s.log.Installable) ∧
      (s.log.Installable → outcome = .ok () ∧ (call = .reset → next.plan.handlers = []) ∧
        (call ≠ .reset → s.log.SetUp next.plan)) ∧
      (¬s.log.Installable → next.plan.handlers = [] ∧ (outcome = .ok () ↔ call = .reset)) := by
  obtain ⟨config, -, hsettings⟩ := load_eq_ok.mp hload
  have hchecked : Text.capitals s.log.level ∈ logLevels := (Settings.wellFormed_of_ofLayer hsettings).2.1.level
  refine ⟨LogPlan.exists_handlersOf_iff hchecked, ?usable, ?unusable⟩
  case usable =>
    intro h
    have hstands := Log.stands_after hchecked h hidle calls
    obtain ⟨hok, hreset, hsetUp⟩ := Log.perform_of_installable hchecked h hstands call
    rw [hcall] at hok hreset hsetUp
    exact ⟨hok, fun his => (hreset his).2, fun hnot => (hsetUp hnot).2⟩
  case unusable =>
    intro h
    have hstays := Log.idle_after hchecked h hidle calls
    obtain ⟨hnext, hok⟩ := Log.perform_of_not_installable hchecked h hstays call
    rw [hcall] at hnext hok
    exact ⟨hnext.2, hok⟩

/-- In production both places are enabled. A log that was set up, reset and set up again has one handler for each. -/
theorem loaded_settings_install_production :
    ∃ s next, bundled.load [(selector, "production")] = .ok s ∧ s.log.Installable ∧
      (Log.after {} s.log [.request, .request, .reset, .configure]).perform s.log .configure = (next, .ok ()) ∧
      next.plan.handlers.map (·.target) = [.file, .console] := by
  obtain ⟨s, hload, hs⟩ := exists_ok_of_any (x := bundled.load [(selector, "production")])
    (p := fun s => (LogPlan.handlersOf s.log).toOption.isSome &&
      [LogTarget.file, .console].filter s.log.enables == [.file, .console]) (by decide +kernel)
  obtain ⟨hhandlers, henabled⟩ := Bool.and_eq_true_iff.mp hs
  have hidle : ({} : Log).Idle := ⟨rfl, rfl⟩
  rcases hcall : (Log.after {} s.log [.request, .request, .reset, .configure]).perform s.log .configure
    with ⟨next, outcome⟩
  obtain ⟨hiff, husable, -⟩ := loaded_settings_install hload hidle _ _ hcall
  have hinstallable : s.log.Installable := by
    refine hiff.mp ?_
    cases h : LogPlan.handlersOf s.log with
    | ok handlers => exact ⟨handlers, rfl⟩
    | error e =>
        rw [h] at hhandlers
        cases hhandlers
  obtain ⟨rfl, -, hsetUp⟩ := husable hinstallable
  refine ⟨s, next, hload, hinstallable, hcall, ?_⟩
  rw [(hsetUp nofun).targets]
  exact beq_iff_eq.mp henabled

/-- **Settings are loaded that cannot be installed**: the level of the console may be a number. -/
theorem not_always_installed :
    ¬∀ (sources : Sources) (env : Environment) (s : Settings), sources.load env = .ok s →
      (Log.request {} s.log).2 = .ok () := by
  intro halways
  obtain ⟨s, hload, hfails⟩ := exists_ok_of_any
    (x := load { base := .obj [("logging", .obj [("console", .obj [("level", .int 10)])])] } [])
    (p := fun s => (Log.request {} s.log).2 == .error .levelNotText) (by decide +kernel)
  have hok := halways _ _ s hload
  rw [beq_iff_eq.mp hfails] at hok
  cases hok

end Sources

end TradingRules
