import TradingRules.Config.Environment
import TradingRules.Proofs.Fallible

/-!
# `Proofs.Config.Loading` — settings that were loaded are well-formed

Between a document and the settings a value is looked at twice. The check asks a section whether it has the value,
and a section of the wrong kind may answer that it has not: text and lists do. Then the settings are read from the
configuration, with a default where nothing stands. What was loaded went through both, so the sections that hold
checked values are objects (`Settings.fieldsOf`), the check looked at the very fields that are read, and each value
in the settings is one that the check accepted or the default (`Settings.wellFormed_of_ofLayer`). It makes no
difference which layers and variables the configuration came from.

## Contents
* `Config.judgeLevel_eq_ok` and others — what a verdict says about the value;
* `Config.judged_of_check` — the check of a configuration whose sections are objects;
* `Settings.build_eq_ok`, `Sources.load_eq_ok` — loading, taken apart;
* `Settings.WellFormed`, `Settings.FromSource` — settings and the configuration they were made from.
-/

namespace TradingRules

open Fallible

/-! ## Verdicts -/

namespace Config

/-- A number of backups: an integer that is not negative, or a truth value, which counts as one. -/
def IsCount : Json → Prop
  | .int n => 0 ≤ n
  | .bool _ => True
  | _ => False

/-- A level that is accepted is missing, or it is text that names one. -/
theorem judgeLevel_eq_ok {problem : Problem} {value : Option Json} {level : Option String} :
    judgeLevel problem value = .ok level ↔
      value = level.map .str ∧ ∀ name, level = some name → isLogLevel name = true := by
  constructor
  · intro h
    unfold judgeLevel at h
    split at h
    case h_1 =>
      cases h
      exact ⟨rfl, nofun⟩
    case h_2 name =>
      split at h
      case isFalse => cases h
      case isTrue hname =>
        cases h
        exact ⟨rfl, fun _ hsame => Option.some.inj hsame ▸ hname⟩
    case h_3 => cases h
  · rintro ⟨rfl, hname⟩
    cases level with
    | none => rfl
    | some name => exact if_pos (hname name rfl)

/-- A window that is accepted is missing, or it is an integer that is large enough. -/
theorem judgeWindow_eq_ok {value : Option Json} {window : Option Int} :
    judgeWindow value = .ok window ↔ value = window.map .int ∧ ∀ n, window = some n → leastWindow ≤ n := by
  constructor
  · intro h
    unfold judgeWindow at h
    split at h
    case h_1 =>
      cases h
      exact ⟨rfl, nofun⟩
    case h_2 n =>
      split at h
      case isFalse => cases h
      case isTrue hlarge =>
        cases h
        exact ⟨rfl, fun _ hsame => Option.some.inj hsame ▸ hlarge⟩
    case h_3 => cases h
  · rintro ⟨rfl, hlarge⟩
    cases window with
    | none => rfl
    | some n => exact if_pos (hlarge n rfl)

/-- A number of backups that is accepted is missing, or it is a count. -/
theorem judgeBackups_eq_ok {value count : Option Json} :
    judgeBackups value = .ok count ↔ value = count ∧ ∀ n, count = some n → IsCount n := by
  constructor
  · intro h
    unfold judgeBackups at h
    split at h
    case h_1 =>
      cases h
      exact ⟨rfl, nofun⟩
    case h_2 n =>
      split at h
      case isFalse => cases h
      case isTrue hcount =>
        cases h
        exact ⟨rfl, fun _ hsame => Option.some.inj hsame ▸ hcount⟩
    case h_3 b =>
      cases h
      exact ⟨rfl, fun _ hsame => Option.some.inj hsame ▸ trivial⟩
    case h_4 => cases h
  · rintro ⟨rfl, hcount⟩
    cases value with
    | none => rfl
    | some n =>
        have hn : IsCount n := hcount n rfl
        cases n with
        | int n => exact if_pos hn
        | bool b => rfl
        | _ => exact hn.elim

/-- All values are accepted if each of them is. -/
theorem accept_eq_ok {appLevel level : Verdict String} {window : Verdict Int} {backupCount : Verdict Json}
    {accepted : Accepted} :
    accept appLevel window level backupCount = .ok accepted ↔
      appLevel = .ok accepted.appLevel ∧ window = .ok accepted.window ∧ level = .ok accepted.level ∧
        backupCount = .ok accepted.backupCount := by
  constructor
  · intro h
    unfold accept at h
    split at h
    · cases h
      exact ⟨rfl, rfl, rfl, rfl⟩
    · cases h
  · rintro ⟨rfl, rfl, rfl, rfl⟩
    rfl

end Config

/-! ## Sections -/

section Sections

variable {key : String} {layer fields : Layer}

/-- A section has fields if it is an object, and none if it is missing. -/
theorem Settings.fieldsOf_eq_ok :
    fieldsOf key layer = .ok fields ↔ (layer.lookup key).getD (.obj []) = .obj fields := by
  unfold fieldsOf
  cases layer.lookup key with
  | none => simp
  | some value => cases value <;> simp

/-- The check looks into the same fields as the settings. -/
theorem Config.bind_entry_of_fieldsOf (h : Settings.fieldsOf key layer = .ok fields) (name : String) {α : Type}
    (next : Json → Option Json → Except ConfigError α) :
    (section? key (.obj layer) >>= fun found => entry? name found >>= next found)
      = next (.obj fields) (fields.lookup name) := by
  show entry? name ((layer.lookup key).getD (.obj [])) >>= next ((layer.lookup key).getD (.obj [])) = _
  rw [Settings.fieldsOf_eq_ok.mp h]
  rfl

theorem Layer.at?_singleton (name : String) (fields : Layer) : at? [name] (.obj fields) = fields.lookup name := by
  show (fields.lookup name).bind some = _
  cases fields.lookup name <;> rfl

/-- A path into a section goes on in its fields. -/
theorem Layer.at?_of_fieldsOf (h : Settings.fieldsOf key layer = .ok fields) (name : String) (rest : List String) :
    at? (key :: name :: rest) (.obj layer) = at? (name :: rest) (.obj fields) := by
  show (layer.lookup key).bind (at? (name :: rest)) = _
  rw [← Settings.fieldsOf_eq_ok.mp h]
  cases layer.lookup key <;> rfl

end Sections

/-- The check of a configuration judges the values that stand in its sections, where these are objects. -/
theorem Config.judged_of_check {source app engine logging file : Layer} {accepted : Accepted}
    (h : check (.obj source) = .ok accepted) (happ : Settings.fieldsOf "app" source = .ok app)
    (hengine : Settings.fieldsOf "engine" source = .ok engine)
    (hlogging : Settings.fieldsOf "logging" source = .ok logging)
    (hfile : Settings.fieldsOf "file" logging = .ok file) :
    judgeLevel .appLevel (app.lookup "log_level") = .ok accepted.appLevel ∧
      judgeWindow (engine.lookup "snapshot_window") = .ok accepted.window ∧
      judgeLevel .level (logging.lookup "level") = .ok accepted.level ∧
      judgeBackups (file.lookup "backup_count") = .ok accepted.backupCount := by
  unfold check at h
  rw [bind_entry_of_fieldsOf happ, bind_entry_of_fieldsOf hengine, bind_entry_of_fieldsOf hlogging,
    bind_entry_of_fieldsOf hfile] at h
  exact accept_eq_ok.mp h

/-! ## Loading -/

namespace Settings

/-- The settings of a configuration: its sections are objects, and a checked value that is missing has its
default. -/
theorem build_eq_ok {source : Layer} {accepted : Config.Accepted} {s : Settings}
    (h : build source accepted = .ok s) :
    ∃ app engine logging file, fieldsOf "app" source = .ok app ∧ fieldsOf "engine" source = .ok engine ∧
      fieldsOf "logging" source = .ok logging ∧ fieldsOf "file" logging = .ok file ∧
      s.source = source ∧ s.appLevel = accepted.appLevel.getD "INFO" ∧
      s.window = accepted.window.getD leastWindow ∧ s.log.level = accepted.level.getD s.appLevel ∧
      s.log.backupCount = accepted.backupCount.getD (.int 5) := by
  obtain ⟨app, happ, h⟩ := bind_eq_ok.mp h
  obtain ⟨logging, hlogging, h⟩ := bind_eq_ok.mp h
  obtain ⟨file, hfile, h⟩ := bind_eq_ok.mp h
  obtain ⟨console, -, h⟩ := bind_eq_ok.mp h
  obtain ⟨engine, hengine, h⟩ := bind_eq_ok.mp h
  cases pure_eq_ok.mp h
  exact ⟨app, engine, logging, file, happ, hengine, hlogging, hfile, rfl, rfl, rfl, rfl, rfl⟩

/-- The levels, in capitals, are levels that a log may have; the window has room for all that a leaf reads; and the
number of backups is a count. -/
structure WellFormed (s : Settings) : Prop where
  appLevel : Text.capitals s.appLevel ∈ logLevels
  window : leastWindow ≤ s.window
  level : Text.capitals s.log.level ∈ logLevels
  backupCount : Config.IsCount s.log.backupCount

/-- The checked values are those that stand in the configuration, whatever the kind of a value there; where none
stands there they are the defaults. -/
structure FromSource (s : Settings) : Prop where
  appLevel : (Layer.at? ["app", "log_level"] (.obj s.source)).getD (.str "INFO") = .str s.appLevel
  window : (Layer.at? ["engine", "snapshot_window"] (.obj s.source)).getD (.int leastWindow) = .int s.window
  level : (Layer.at? ["logging", "level"] (.obj s.source)).getD (.str s.appLevel) = .str s.log.level
  backupCount : (Layer.at? ["logging", "file", "backup_count"] (.obj s.source)).getD (.int 5) = s.log.backupCount

theorem mem_logLevels_iff {name : String} : isLogLevel name = true ↔ Text.capitals name ∈ logLevels := by
  unfold isLogLevel
  exact List.contains_iff_mem

/-- An accepted value or a default has what both have. -/
theorem forall_getD {α : Type} {P : α → Prop} {given : Option α} {default : α} (hgiven : ∀ a, given = some a → P a)
    (hdefault : P default) : P (given.getD default) := by
  cases given with
  | none => exact hdefault
  | some a => exact hgiven a rfl

/-- **Settings that were made from a configuration are well-formed**, and hold what stands in it. -/
theorem wellFormed_of_ofLayer {source : Layer} {s : Settings} (h : ofLayer source = .ok s) :
    s.source = source ∧ s.WellFormed ∧ s.FromSource := by
  obtain ⟨accepted, hcheck, hbuild⟩ := bind_eq_ok.mp h
  obtain ⟨app, engine, logging, file, happ, hengine, hlogging, hfile, rfl, hvalues⟩ := build_eq_ok hbuild
  obtain ⟨happLevel, hwindow, hlevel, hbackups⟩ := hvalues
  -- the sections are objects, so what was judged is what is read
  obtain ⟨hjudgedApp, hjudgedWindow, hjudgedLevel, hjudgedBackups⟩ :=
    Config.judged_of_check hcheck happ hengine hlogging hfile
  obtain ⟨hgivenApp, hisApp⟩ := Config.judgeLevel_eq_ok.mp hjudgedApp
  obtain ⟨hgivenWindow, hisWindow⟩ := Config.judgeWindow_eq_ok.mp hjudgedWindow
  obtain ⟨hgivenLevel, hisLevel⟩ := Config.judgeLevel_eq_ok.mp hjudgedLevel
  obtain ⟨hgivenBackups, hisBackups⟩ := Config.judgeBackups_eq_ok.mp hjudgedBackups
  have hwellApp : Text.capitals s.appLevel ∈ logLevels := by
    rw [happLevel, ← mem_logLevels_iff]
    exact forall_getD hisApp (by decide)
  have hwell : s.WellFormed := by
    refine ⟨hwellApp, ?window, ?level, ?backupCount⟩
    case window =>
      rw [hwindow]
      exact forall_getD hisWindow (Int.le_refl _)
    case level =>
      -- the level of the log falls back to that of the application
      rw [hlevel, ← mem_logLevels_iff]
      exact forall_getD hisLevel (mem_logLevels_iff.mpr hwellApp)
    case backupCount =>
      rw [hbackups]
      exact forall_getD hisBackups (Int.natCast_nonneg 5)
  refine ⟨rfl, hwell, ?appLevel, ?window, ?level, ?backupCount⟩
  case appLevel => rw [Layer.at?_of_fieldsOf happ, Layer.at?_singleton, hgivenApp, happLevel, Option.getD_map]
  case window => rw [Layer.at?_of_fieldsOf hengine, Layer.at?_singleton, hgivenWindow, hwindow, Option.getD_map]
  case level => rw [Layer.at?_of_fieldsOf hlogging, Layer.at?_singleton, hgivenLevel, hlevel, Option.getD_map]
  case backupCount =>
    rw [Layer.at?_of_fieldsOf hlogging, Layer.at?_of_fieldsOf hfile, Layer.at?_singleton, hgivenBackups, hbackups]

end Settings

namespace Sources

variable {sources : Sources} {env : Environment} {s : Settings}

/-- Settings are loaded from a configuration that is an object. -/
theorem load_eq_ok :
    sources.load env = .ok s ↔
      ∃ config, sources.configure env = .ok (.obj config) ∧ Settings.ofLayer config = .ok s := by
  unfold load
  rw [bind_eq_ok]
  constructor
  · rintro ⟨config, hconfig, h⟩
    cases config with
    | obj config => exact ⟨config, hconfig, h⟩
    | _ => cases h
  · rintro ⟨config, hconfig, h⟩
    exact ⟨.obj config, hconfig, h⟩

end Sources

end TradingRules
