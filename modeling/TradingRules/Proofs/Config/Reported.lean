import TradingRules.Proofs.Config.Sections

/-!
# `Proofs.Config.Reported` — which configurations are loaded or reported

Loading is meant to end in one of two ways: with settings, or with a report of the checked values that are not as they
should be. It goes over the sections three times. Variables are put into them, checked values are looked for in them,
and settings are read from them, and nowhere is a section itself checked. One that is null, a number, text or a list
stops the load with an error of another kind, unless it happens to get by: text and lists can be asked for an entry
that they do not contain, and a report of other values comes before the settings are read.

`Sources.load_reported_iff` says which layers end as they are meant to, for all variables. Layers whose sections are
objects or missing are among them (`Sources.Loadable.of_sections`).

## Contents
* `Config.Asked`, `Config.check_of_asked` — when the check comes to a verdict, and on which values;
* `Settings.exists_build_iff` — when settings can be read;
* `Problem.Wrong` — a checked value that is not as it should be;
* `Sources.Loadable`, `Sources.load_reported_iff` — loading;
* `Sources.not_always_reported` — a section that is neither loaded nor reported.
-/

namespace TradingRules

open Fallible
open Layer (StandsAs)

/-! ## The check -/

/-- The value can be asked whether it has an entry: an object gives it, and text and lists say that they do not contain
the key. -/
def Json.Answers (key : String) : Json → Prop
  | .obj _ => True
  | .str text => ¬key.toList <:+: text.toList
  | .arr items => .str key ∉ items
  | _ => False

theorem Json.answers_of_isObject {key : String} {value : Json} (h : value.IsObject) : value.Answers key := by
  obtain ⟨fields, rfl⟩ := Json.isObject_iff.mp h
  exact trivial

namespace Config

variable {key : String} {config source : Layer} {found : Option Json} {value inner : Json} {e : ConfigError}

theorem hasRun_iff {run cs : List Char} : hasRun run cs = true ↔ run <:+: cs := by
  induction cs with
  | nil => simp [hasRun]
  | cons c cs ih => simp [hasRun, List.infix_cons_iff, ih]

/-- An entry is found, or known to be missing, in a value that can be asked for it. -/
theorem entry?_eq_ok : entry? key value = .ok found ↔ value.Answers key ∧ value.field? key = found := by
  cases value with
  | str text =>
      rw [Json.Answers, ← hasRun_iff]
      by_cases hrun : hasRun key.toList text.toList = true <;> simp [ entry?, hrun, Json.field?]
  | arr items => by_cases hmem : Json.str key ∈ items <;> simp [ entry?, hmem, Json.Answers, Json.field?]
  | _ => simp [ entry?, Json.Answers, Json.field?]

theorem stray_of_entry? (h : entry? key value = .error e) : e.Stray := by
  unfold entry? at h
  split at h
  case h_1 => cases h
  case h_4 =>
    cases h
    exact fun _ => nofun
  all_goals
    split at h <;> cases h
    exact fun _ => nofun

theorem section?_obj (key : String) (config : Layer) :
    Config.section? key (.obj config) = .ok ((config.lookup key).getD (.obj [])) := rfl

theorem stray_of_section? (h : section? key value = .error e) : e.Stray := by
  cases value <;> cases h <;> exact fun _ => nofun

/-- Sections are looked for in objects only. -/
theorem object_of_section? (h : section? key value = .ok inner) : ∃ fields, value = .obj fields := by
  cases value with
  | obj fields => exact ⟨fields, rfl⟩
  | _ => cases h

/-- The sections that checked values are looked for in can be asked for them. -/
structure Asked (config : Json) : Prop where
  appLevel : StandsAs (Json.Answers "log_level") ["app"] config
  window : StandsAs (Json.Answers "snapshot_window") ["engine"] config
  logging : StandsAs Json.IsObject ["logging"] config
  backupCount : StandsAs (Json.Answers "backup_count") ["logging", "file"] config

/-- A value that can be asked for an entry is looked up at its path. -/
theorem bind_entry_of_answers {name : String} (h : StandsAs (Json.Answers key) [name] (.obj config)) {α : Type}
    (next : Json → Option Json → Except ConfigError α) :
    (section? name (.obj config) >>= fun found => entry? key found >>= next found)
      = next ((config.lookup name).getD (.obj [])) (Layer.at? [name, key] (.obj config)) := by
  have hanswers : ((config.lookup name).getD (.obj [])).Answers key :=
    Layer.standsAs_nil.mp ((Layer.standsAs_cons trivial).mp h)
  have hentry := entry?_eq_ok.mpr ⟨hanswers, rfl⟩
  rw [section?_obj]
  show entry? key ((config.lookup name).getD (.obj [])) >>= next ((config.lookup name).getD (.obj [])) = _
  rw [hentry, Layer.at?_section (List.cons_ne_nil key []), Layer.at?_field]
  rfl

/-- **The check of a configuration whose sections can be asked is the verdict on the values at their paths.** -/
theorem check_of_asked (h : Asked (.obj config)) :
    check (.obj config) =
      accept (judgeLevel .appLevel (Layer.at? ["app", "log_level"] (.obj config)))
        (judgeWindow (Layer.at? ["engine", "snapshot_window"] (.obj config)))
        (judgeLevel .level (Layer.at? ["logging", "level"] (.obj config)))
        (judgeBackups (Layer.at? ["logging", "file", "backup_count"] (.obj config))) := by
  have hlevel : StandsAs (Json.Answers "level") ["logging"] (.obj config) :=
    fun value hvalue => Json.answers_of_isObject (h.logging value hvalue)
  have hobject : ((config.lookup "logging").getD (.obj [])).IsObject :=
    Layer.standsAs_nil.mp ((Layer.standsAs_cons trivial).mp h.logging)
  obtain ⟨logging, hlogging⟩ := Json.isObject_iff.mp hobject
  have hfile : StandsAs (Json.Answers "backup_count") ["file"] (.obj logging) := by
    rw [← hlogging]
    exact (Layer.standsAs_cons trivial).mp h.backupCount
  have hcount : Layer.at? ["logging", "file", "backup_count"] (.obj config)
      = Layer.at? ["file", "backup_count"] (.obj logging) := by
    rw [Layer.at?_section (List.cons_ne_nil _ _), hlogging]
  unfold check
  rw [bind_entry_of_answers h.appLevel, bind_entry_of_answers h.window, bind_entry_of_answers hlevel, hlogging,
    bind_entry_of_answers hfile, hcount]

/-- A step that does not end in a stray error, and whose own errors are all stray, has a result to go on from. -/
theorem exists_ok_of_not_stray {α β : Type} {x : Except ConfigError α} {f : α → Except ConfigError β}
    (h : ¬FailsWith ConfigError.Stray (x >>= f)) (hstray : ∀ e, x = .error e → e.Stray) :
    ∃ a, x = .ok a ∧ ¬FailsWith ConfigError.Stray (f a) := by
  rw [failsWith_bind, not_or] at h
  obtain ⟨hfirst, hrest⟩ := h
  cases x with
  | error e => exact absurd ⟨e, rfl, hstray e rfl⟩ hfirst
  | ok a => exact ⟨a, rfl, fun hfails => hrest ⟨a, rfl, hfails⟩⟩

/-- **A check that comes to a verdict has asked all of its sections.** -/
theorem asked_of_not_stray (h : ¬FailsWith ConfigError.Stray (check (.obj config))) : Asked (.obj config) := by
  unfold check at h
  obtain ⟨app, happ, h⟩ := exists_ok_of_not_stray h fun _ => stray_of_section?
  obtain ⟨appLevel, happLevel, h⟩ := exists_ok_of_not_stray h fun _ => stray_of_entry?
  obtain ⟨engine, hengine, h⟩ := exists_ok_of_not_stray h fun _ => stray_of_section?
  obtain ⟨window, hwindow, h⟩ := exists_ok_of_not_stray h fun _ => stray_of_entry?
  obtain ⟨logging, hlogging, h⟩ := exists_ok_of_not_stray h fun _ => stray_of_section?
  obtain ⟨level, -, h⟩ := exists_ok_of_not_stray h fun _ => stray_of_entry?
  obtain ⟨file, hfile, h⟩ := exists_ok_of_not_stray h fun _ => stray_of_section?
  obtain ⟨backupCount, hbackupCount, -⟩ := exists_ok_of_not_stray h fun _ => stray_of_entry?
  cases happ
  cases hengine
  cases hlogging
  obtain ⟨fields, hfields⟩ := object_of_section? hfile
  rw [hfields] at hfile
  cases hfile
  refine ⟨?appLevel, ?window, ?logging, ?backupCount⟩
  case appLevel => exact (Layer.standsAs_cons trivial).mpr (Layer.standsAs_nil.mpr (entry?_eq_ok.mp happLevel).1)
  case window => exact (Layer.standsAs_cons trivial).mpr (Layer.standsAs_nil.mpr (entry?_eq_ok.mp hwindow).1)
  case logging =>
    refine (Layer.standsAs_cons trivial).mpr (Layer.standsAs_nil.mpr ?_)
    rw [hfields]
    exact trivial
  case backupCount =>
    refine (Layer.standsAs_cons trivial).mpr ?_
    rw [hfields]
    exact (Layer.standsAs_cons trivial).mpr (Layer.standsAs_nil.mpr (entry?_eq_ok.mp hbackupCount).1)

/-- The value names a level. -/
def IsLevel : Json → Prop
  | .str name => isLogLevel name = true
  | _ => False

/-- The value is a window in which every leaf sees all it reads. -/
def IsWindow : Json → Prop
  | .int n => leastWindow ≤ n
  | _ => False

end Config

namespace Problem

/-- The path of the checked value. -/
def place : Problem → List String
  | .appLevel => ["app", "log_level"]
  | .window => ["engine", "snapshot_window"]
  | .level => ["logging", "level"]
  | .backupCount => ["logging", "file", "backup_count"]

/-- The checked value may be this. -/
def Admits : Problem → Json → Prop
  | .appLevel | .level => Config.IsLevel
  | .window => Config.IsWindow
  | .backupCount => Config.IsCount

/-- The checked value is given, and it is not as it should be. -/
def Faults (p : Problem) (given : Option Json) : Prop := ∃ value, given = some value ∧ ¬p.Admits value

variable {p q : Problem} {given : Option Json}

theorem not_faults_none : ¬p.Faults none := nofun

theorem faults_some {value : Json} : p.Faults (some value) ↔ ¬p.Admits value := by
  simp [Faults]

end Problem

namespace Config

variable {config : Layer} {given : Option Json} {q : Problem}

theorem mem_judgeLevel {p : Problem} (hlevel : p.Admits = IsLevel) :
    q ∈ problemOf (judgeLevel p given) ↔ q = p ∧ p.Faults given := by
  cases given with
  | none => simp [judgeLevel, problemOf, Problem.not_faults_none]
  | some value =>
      rw [Problem.faults_some, hlevel]
      cases value with
      | str name => by_cases hname : isLogLevel name = true <;> simp [judgeLevel, problemOf, IsLevel, hname]
      | _ => simp [judgeLevel, problemOf, IsLevel]

theorem mem_judgeWindow : q ∈ problemOf (judgeWindow given) ↔ q = .window ∧ Problem.window.Faults given := by
  cases given with
  | none => simp [judgeWindow, problemOf, Problem.not_faults_none]
  | some value =>
      rw [Problem.faults_some]
      cases value with
      | int n =>
          by_cases hlarge : (leastWindow : Int) ≤ n <;>
            simp [judgeWindow, problemOf, Problem.Admits, IsWindow, hlarge]
      | _ => simp [judgeWindow, problemOf, Problem.Admits, IsWindow]

theorem mem_judgeBackups :
    q ∈ problemOf (judgeBackups given) ↔ q = .backupCount ∧ Problem.backupCount.Faults given := by
  cases given with
  | none => simp [judgeBackups, problemOf, Problem.not_faults_none]
  | some value =>
      rw [Problem.faults_some]
      cases value with
      | int n => by_cases hcount : 0 ≤ n <;> simp [judgeBackups, problemOf, Problem.Admits, IsCount, hcount]
      | _ => simp [judgeBackups, problemOf, Problem.Admits, IsCount]

/-- The problems of a configuration, in the order in which they are reported. -/
def problems (config : Json) : List Problem :=
  problemOf (judgeLevel .appLevel (Layer.at? ["app", "log_level"] config)) ++
    problemOf (judgeWindow (Layer.at? ["engine", "snapshot_window"] config)) ++
    problemOf (judgeLevel .level (Layer.at? ["logging", "level"] config)) ++
    problemOf (judgeBackups (Layer.at? ["logging", "file", "backup_count"] config))

/-- **The problems are the checked values that are not as they should be.** -/
theorem mem_problems (config : Json) : q ∈ problems config ↔ q.Faults (Layer.at? q.place config) := by
  unfold problems
  rw [List.mem_append, List.mem_append, List.mem_append, mem_judgeLevel rfl, mem_judgeWindow, mem_judgeLevel rfl,
    mem_judgeBackups]
  cases q <;> simp [Problem.place]

/-- Verdicts are put together to an error if there is a problem among them. -/
theorem accept_eq_error_iff {appLevel level : Verdict String} {window : Verdict Int} {backupCount : Verdict Json}
    {found : List Problem} {e : ConfigError}
    (hfound : problemOf appLevel ++ problemOf window ++ problemOf level ++ problemOf backupCount = found) :
    accept appLevel window level backupCount = .error e ↔ found ≠ [] ∧ .invalid found = e := by
  subst hfound
  cases appLevel <;> cases window <;> cases level <;> cases backupCount <;> simp [accept, problemOf]

/-- The check of sections that can be asked fails with the problems, if there are any. -/
theorem check_eq_error_iff (h : Asked (.obj config)) {e : ConfigError} :
    check (.obj config) = .error e ↔ problems (.obj config) ≠ [] ∧ .invalid (problems (.obj config)) = e := by
  rw [check_of_asked h, accept_eq_error_iff rfl]
  rfl

end Config

/-! ## Settings -/

namespace Settings

variable {key : String} {layer config fields : Layer} {accepted : Config.Accepted} {e : ConfigError}

/-- The sections that settings are read from. -/
def sections : List (List String) :=
  [["app"], ["engine"], ["logging"], ["logging", "file"], ["logging", "console"]]

/-- All sections of a configuration are objects, or missing. -/
def Sectioned (config : Json) : Prop := ∀ path ∈ sections, StandsAs Json.IsObject path config

theorem exists_fieldsOf_iff :
    (∃ fields, fieldsOf key layer = .ok fields) ↔ StandsAs Json.IsObject [key] (.obj layer) := by
  rw [Layer.standsAs_cons trivial, Layer.standsAs_nil, Json.isObject_iff]
  simp only [fieldsOf_eq_ok]

theorem standsAs_of_fieldsOf (h : fieldsOf key layer = .ok fields) {keys : List String} :
    StandsAs Json.IsObject (key :: keys) (.obj layer) ↔ StandsAs Json.IsObject keys (.obj fields) := by
  rw [Layer.standsAs_cons trivial, fieldsOf_eq_ok.mp h]

theorem stray_of_fieldsOf (h : fieldsOf key layer = .error e) : e.Stray := by
  unfold fieldsOf at h
  split at h <;> cases h
  exact fun _ => nofun

/-- **Settings can be read if all sections are objects or missing.** -/
theorem exists_build_iff : (∃ s, build layer accepted = .ok s) ↔ Sectioned (.obj layer) := by
  unfold Sectioned sections
  simp only [List.forall_mem_cons, List.not_mem_nil, false_imp_iff, implies_true, and_true]
  constructor
  · rintro ⟨s, h⟩
    obtain ⟨app, happ, h⟩ := bind_eq_ok.mp h
    obtain ⟨logging, hlogging, h⟩ := bind_eq_ok.mp h
    obtain ⟨file, hfile, h⟩ := bind_eq_ok.mp h
    obtain ⟨console, hconsole, h⟩ := bind_eq_ok.mp h
    obtain ⟨engine, hengine, -⟩ := bind_eq_ok.mp h
    refine ⟨exists_fieldsOf_iff.mp ⟨app, happ⟩, exists_fieldsOf_iff.mp ⟨engine, hengine⟩,
      exists_fieldsOf_iff.mp ⟨logging, hlogging⟩, ?_, ?_⟩
    · exact (standsAs_of_fieldsOf hlogging).mpr (exists_fieldsOf_iff.mp ⟨file, hfile⟩)
    · exact (standsAs_of_fieldsOf hlogging).mpr (exists_fieldsOf_iff.mp ⟨console, hconsole⟩)
  · rintro ⟨happ, hengine, hlogging, hfile, hconsole⟩
    obtain ⟨app, happ⟩ := exists_fieldsOf_iff.mpr happ
    obtain ⟨engine, hengine⟩ := exists_fieldsOf_iff.mpr hengine
    obtain ⟨logging, hlogging⟩ := exists_fieldsOf_iff.mpr hlogging
    obtain ⟨file, hfile⟩ := exists_fieldsOf_iff.mpr ((standsAs_of_fieldsOf hlogging).mp hfile)
    obtain ⟨console, hconsole⟩ := exists_fieldsOf_iff.mpr ((standsAs_of_fieldsOf hlogging).mp hconsole)
    simp only [build, happ, hlogging, hfile, hconsole, hengine, bind, Except.bind]
    exact ⟨_, rfl⟩

theorem stray_of_build (h : build layer accepted = .error e) : e.Stray := by
  rcases bind_eq_error.mp h with happ | ⟨app, -, h⟩
  · exact stray_of_fieldsOf happ
  rcases bind_eq_error.mp h with hlogging | ⟨logging, -, h⟩
  · exact stray_of_fieldsOf hlogging
  rcases bind_eq_error.mp h with hfile | ⟨file, -, h⟩
  · exact stray_of_fieldsOf hfile
  rcases bind_eq_error.mp h with hconsole | ⟨console, -, h⟩
  · exact stray_of_fieldsOf hconsole
  rcases bind_eq_error.mp h with hengine | ⟨engine, -, h⟩
  · exact stray_of_fieldsOf hengine
  · cases h

/-- Settings are made from a configuration that can be asked, has no problems, and can be read from. -/
theorem exists_ofLayer_iff :
    (∃ s, ofLayer config = .ok s) ↔
      Config.Asked (.obj config) ∧ Config.problems (.obj config) = [] ∧ Sectioned (.obj config) := by
  constructor
  · rintro ⟨s, h⟩
    obtain ⟨accepted, hcheck, hbuild⟩ := bind_eq_ok.mp h
    have hasked : Config.Asked (.obj config) := Config.asked_of_not_stray (by rw [hcheck]; exact not_failsWith_ok _)
    have hnone : Config.problems (.obj config) = [] := by
      by_contra hsome
      rw [(Config.check_eq_error_iff hasked).mpr ⟨hsome, rfl⟩] at hcheck
      cases hcheck
    exact ⟨hasked, hnone, exists_build_iff.mp ⟨s, hbuild⟩⟩
  · rintro ⟨hasked, hnone, hsections⟩
    cases hcheck : Config.check (.obj config) with
    | error e => exact absurd hnone ((Config.check_eq_error_iff hasked).mp hcheck).1
    | ok accepted =>
        obtain ⟨s, hs⟩ := exists_build_iff.mpr hsections
        exact ⟨s, bind_eq_ok.mpr ⟨accepted, hcheck, hs⟩⟩

/-- A report lists the problems of a configuration that can be asked. -/
theorem ofLayer_eq_invalid_iff {found : List Problem} :
    ofLayer config = .error (.invalid found) ↔
      Config.Asked (.obj config) ∧ Config.problems (.obj config) ≠ [] ∧ Config.problems (.obj config) = found := by
  have hreported : ofLayer config = .error (.invalid found) ↔ Config.check (.obj config) = .error (.invalid found) := by
    unfold ofLayer
    rw [bind_eq_error]
    refine or_iff_left ?_
    rintro ⟨accepted, -, hbuild⟩
    exact stray_of_build hbuild found rfl
  rw [hreported]
  constructor
  · intro h
    have hasked : Config.Asked (.obj config) := by
      refine Config.asked_of_not_stray ?_
      rw [h, failsWith_error]
      exact fun hstray => hstray found rfl
    obtain ⟨hsome, hfound⟩ := (Config.check_eq_error_iff hasked).mp h
    exact ⟨hasked, hsome, ConfigError.invalid.inj hfound⟩
  · rintro ⟨hasked, hsome, rfl⟩
    exact (Config.check_eq_error_iff hasked).mpr ⟨hsome, rfl⟩

/-- **Making settings ends with them or with a report** if the sections can be asked, and there is a problem or all
sections are objects or missing. -/
theorem ofLayer_reported_iff :
    ((∃ s, ofLayer config = .ok s) ∨ ∃ found, ofLayer config = .error (.invalid found)) ↔
      Config.Asked (.obj config) ∧ ((∃ p, p ∈ Config.problems (.obj config)) ∨ Sectioned (.obj config)) := by
  rw [exists_ofLayer_iff]
  simp only [ofLayer_eq_invalid_iff]
  by_cases hnone : Config.problems (.obj config) = []
  · simp [hnone]
  · obtain ⟨p, hp⟩ := List.exists_mem_of_ne_nil _ hnone
    constructor
    · rintro (⟨hasked, hnil, -⟩ | ⟨found, hasked, -, -⟩)
      · exact absurd hnil hnone
      · exact ⟨hasked, .inl ⟨p, hp⟩⟩
    · rintro ⟨hasked, -⟩
      exact .inr ⟨_, hasked, hnone, rfl⟩

end Settings

/-! ## Loading -/

namespace Problem

/-- The variable that replaces the checked value, if there is one. -/
def replacedBy? : Problem → Option Variable
  | .appLevel => some .logLevel
  | .window => some .window
  | .level | .backupCount => none

/-- The checked value: that of its variable, if it is set, and otherwise that of the layers. -/
def given? (p : Problem) (env : Environment) (merged : Layer) : Option Json :=
  match p.replacedBy?.bind fun v => (env.lookup v.name).map v.parse with
  | some value => some value
  | none => Layer.at? p.place (.obj merged)

/-- The checked value is not as it should be. -/
def Wrong (env : Environment) (merged : Layer) (p : Problem) : Prop := p.Faults (p.given? env merged)

variable {env : Environment} {merged : Layer} {put : Json}

/-- A variable that replaces another value is put in beside this one. -/
theorem apart_of_replacedBy?_ne {p : Problem} {v : Variable} : p.replacedBy? ≠ some v → Layer.Apart p.place v.place := by
  cases p <;> cases v <;> decide

/-- The checked values of the configuration that the variables have been put into. -/
theorem at?_place (p : Problem) (h : Variable.putAll Variable.all env (.obj merged) = .ok put) :
    Layer.at? p.place put = p.given? env merged := by
  unfold given?
  split
  case h_1 value hvalue =>
    obtain ⟨v, hv, hset⟩ := Option.bind_eq_some_iff.mp hvalue
    obtain ⟨text, htext, rfl⟩ := Option.map_eq_some_iff.mp hset
    have hplace : p.place = v.place := by
      cases p <;> cases hv <;> rfl
    rw [hplace]
    exact Variable.at?_putAll_self h Variable.pairwise_apart v.mem_all htext
  case h_2 hnone =>
    refine Variable.at?_putAll_of_unset h fun v _ => ?_
    by_cases hv : p.replacedBy? = some v
    · rw [hv, Option.bind_some, Option.map_eq_none_iff] at hnone
      exact .inl hnone
    · exact .inr (apart_of_replacedBy?_ne hv)

end Problem

namespace Sources

variable {sources : Sources} {env : Environment} {merged : Layer}

/-- The document is a layer: an object, or not given. -/
def IsLayer (document : Json) : Prop := document.isUnset = true ∨ document.IsObject

/-- The layer of the environment that is selected. -/
def overlay (sources : Sources) (env : Environment) : Json :=
  (sources.overlays.lookup ((env.lookup selector).getD defaultEnvironment)).getD .null

theorem exists_document {value : Json} (h : IsLayer value) : ∃ fields, document value = .obj fields := by
  unfold document
  by_cases hunset : value.isUnset = true
  · exact ⟨[], if_pos hunset⟩
  · rw [if_neg hunset]
    exact Json.isObject_iff.mp (h.resolve_left hunset)

theorem exists_merged (hbase : IsLayer sources.base) (hoverlay : IsLayer (sources.overlay env)) :
    ∃ merged, sources.layered env = .ok merged := by
  obtain ⟨lower, hlower⟩ := exists_document hbase
  obtain ⟨upper, hupper⟩ := exists_document hoverlay
  refine ⟨Layer.merge lower upper, ?_⟩
  show Layer.mergeJson (document sources.base) (document (sources.overlay env)) = _
  rw [hlower, hupper]
  rfl

/-- Loading from these layers ends with settings or with a report: the variables that are set can be put in, checked
values can be asked for, and either one of these is reported or all sections are objects or missing. -/
structure Loadable (env : Environment) (merged : Layer) : Prop where
  room : ∀ v : Variable, v.HasRoom env (.obj merged)
  asked : Config.Asked (.obj merged)
  reported : (∃ p : Problem, p.Wrong env merged) ∨ Settings.Sectioned (.obj merged)

/-- The way to a variable's place leads through sections that settings are read from. -/
theorem mem_sections_of_prefix (v : Variable) {before : List String} (h : before <+: v.path.1) :
    before = [] ∨ before ∈ Settings.sections := by
  cases v <;> simp only [Variable.path, List.prefix_cons_iff, List.prefix_nil] at h
  case logLevel | window =>
    rcases h with rfl | ⟨_, rfl, rfl⟩ <;> decide
  case fileEnabled =>
    rcases h with rfl | ⟨_, rfl, rfl | ⟨_, rfl, rfl⟩⟩ <;> decide

/-- **Layers whose sections are objects or missing are loaded or reported**, whatever else they contain and whatever the
variables are. -/
theorem Loadable.of_sections (h : Settings.Sectioned (.obj merged)) : Loadable env merged := by
  have hanswers : ∀ key path, path ∈ Settings.sections → StandsAs (Json.Answers key) path (.obj merged) :=
    fun _ path hpath value hvalue => Json.answers_of_isObject (h path hpath value hvalue)
  refine ⟨fun v _ before hbefore => ?room, ⟨?_, ?_, h ["logging"] (by decide), ?_⟩, .inr h⟩
  case room =>
    rcases mem_sections_of_prefix v hbefore with rfl | hsection
    · exact Layer.standsAs_nil.mpr trivial
    · exact h before hsection
  · exact hanswers "log_level" ["app"] (by decide)
  · exact hanswers "snapshot_window" ["engine"] (by decide)
  · exact hanswers "backup_count" ["logging", "file"] (by decide)

section Put

variable {config : Layer} {put : Json}

theorem load_of_putAll (hmerged : sources.layered env = .ok merged)
    (hput : Variable.putAll Variable.all env (.obj merged) = .ok (.obj config)) :
    sources.load env = Settings.ofLayer config := by
  have hconfigure : sources.configure env = .ok (.obj config) := bind_eq_ok.mpr ⟨merged, hmerged, hput⟩
  unfold load
  rw [hconfigure]
  rfl

/-- A variable that cannot be put in ends the load with a stray error. -/
theorem load_of_putAll_error (hmerged : sources.layered env = .ok merged) {e : ConfigError}
    (hput : Variable.putAll Variable.all env (.obj merged) = .error e) : sources.load env = .error e := by
  have hconfigure : sources.configure env = .error e := bind_eq_error.mpr (.inr ⟨merged, hmerged, hput⟩)
  exact bind_eq_error.mpr (.inl hconfigure)

/-- **The variables leave the sections as they are**, as objects, as missing or as something else. -/
theorem standsAs_section_iff {P : Json → Prop} (hobject : ∀ fields, P (.obj fields))
    (hput : Variable.putAll Variable.all env (.obj merged) = .ok put) {path : List String}
    (hpath : path ∈ Settings.sections) : StandsAs P path put ↔ StandsAs P path (.obj merged) := by
  have hclear : ∀ v ∈ Variable.all, ¬v.place <+: path := by
    revert path
    decide
  exact Variable.standsAs_putAll_iff hobject hput hclear

theorem asked_iff (hput : Variable.putAll Variable.all env (.obj merged) = .ok put) :
    Config.Asked put ↔ Config.Asked (.obj merged) := by
  have hsame : ∀ key path, path ∈ Settings.sections →
      (StandsAs (Json.Answers key) path put ↔ StandsAs (Json.Answers key) path (.obj merged)) :=
    fun _ _ hpath => standsAs_section_iff (fun _ => trivial) hput hpath
  have hlogging := standsAs_section_iff (P := Json.IsObject) (fun _ => trivial) hput (by decide : ["logging"] ∈ Settings.sections)
  have happ := hsame "log_level" ["app"] (by decide)
  have hengine := hsame "snapshot_window" ["engine"] (by decide)
  have hfile := hsame "backup_count" ["logging", "file"] (by decide)
  constructor
  · intro h
    exact ⟨happ.mp h.appLevel, hengine.mp h.window, hlogging.mp h.logging, hfile.mp h.backupCount⟩
  · intro h
    exact ⟨happ.mpr h.appLevel, hengine.mpr h.window, hlogging.mpr h.logging, hfile.mpr h.backupCount⟩

theorem sectioned_iff (hput : Variable.putAll Variable.all env (.obj merged) = .ok put) :
    Settings.Sectioned put ↔ Settings.Sectioned (.obj merged) :=
  forall₂_congr fun _ hpath => standsAs_section_iff (fun _ => trivial) hput hpath

/-- The problems of the configuration are the checked values that are wrong. -/
theorem mem_problems_iff (hput : Variable.putAll Variable.all env (.obj merged) = .ok put) {p : Problem} :
    p ∈ Config.problems put ↔ p.Wrong env merged := by
  unfold Problem.Wrong
  rw [Config.mem_problems, p.at?_place hput]

end Put

/-- **Which layers are loaded or reported.** For a base and an overlay that are objects or not given, and for all
variables, loading ends with settings or with a report exactly if the layers are loadable, as they are where all sections
are objects or missing. No checked value of settings that were loaded is wrong, and a report lists those that are. -/
theorem load_reported_iff (hbase : IsLayer sources.base) (hoverlay : IsLayer (sources.overlay env)) :
    ∃ merged, sources.layered env = .ok merged ∧
      (((∃ s, sources.load env = .ok s) ∨ ∃ found, sources.load env = .error (.invalid found)) ↔
        Loadable env merged) ∧
      (Settings.Sectioned (.obj merged) → Loadable env merged) ∧
      (∀ s, sources.load env = .ok s → ∀ p : Problem, ¬p.Wrong env merged) ∧
      ∀ found, sources.load env = .error (.invalid found) →
        found ≠ [] ∧ ∀ p : Problem, p ∈ found ↔ p.Wrong env merged := by
  obtain ⟨merged, hmerged⟩ := exists_merged hbase hoverlay
  refine ⟨merged, hmerged, ?_⟩
  have hroom : (∃ put, Variable.putAll Variable.all env (.obj merged) = .ok put) ↔
      ∀ v ∈ Variable.all, v.HasRoom env (.obj merged) :=
    Variable.exists_putAll_iff Variable.pairwise_apart
  cases hput : Variable.putAll Variable.all env (.obj merged) with
  | error e =>
      have hload : sources.load env = .error e := load_of_putAll_error hmerged hput
      have hstray : e.Stray := Variable.stray_of_putAll hput
      have hnot : ¬Loadable env merged := by
        intro h
        obtain ⟨put, hsome⟩ := hroom.mpr fun v _ => h.room v
        rw [hput] at hsome
        cases hsome
      rw [hload]
      refine ⟨iff_of_false ?_ hnot, Loadable.of_sections, nofun, ?_⟩
      · rintro (⟨s, hs⟩ | ⟨found, hfound⟩)
        · cases hs
        · exact hstray found (Except.error.inj hfound)
      · intro found hfound
        exact absurd (Except.error.inj hfound) (hstray found)
  | ok put =>
      have hobject : put.IsObject := by
        refine Layer.standsAs_nil.mp ((Variable.standsAs_putAll_iff (fun _ => trivial) hput ?_).mpr ?_)
        · decide
        · exact Layer.standsAs_nil.mpr trivial
      obtain ⟨config, rfl⟩ := Json.isObject_iff.mp hobject
      have hload : sources.load env = Settings.ofLayer config := load_of_putAll hmerged hput
      have hput' : ∀ v : Variable, v.HasRoom env (.obj merged) := fun v => hroom.mp ⟨_, hput⟩ v v.mem_all
      rw [hload, Settings.ofLayer_reported_iff, asked_iff hput, sectioned_iff hput]
      simp only [mem_problems_iff hput]
      refine ⟨⟨fun h => ⟨hput', h.1, h.2⟩, fun h => ⟨h.asked, h.reported⟩⟩, Loadable.of_sections, ?_, ?_⟩
      · intro s hs p hp
        obtain ⟨-, hnone, -⟩ := Settings.exists_ofLayer_iff.mp ⟨s, hs⟩
        have hmem : p ∈ Config.problems (.obj config) := (mem_problems_iff hput).mpr hp
        rw [hnone] at hmem
        exact List.not_mem_nil hmem
      · intro found hfound
        obtain ⟨-, hsome, rfl⟩ := Settings.ofLayer_eq_invalid_iff.mp hfound
        exact ⟨hsome, fun p => mem_problems_iff hput⟩

/-- Text where a section should be, a window that is too small, and a list that does not contain what is looked for. -/
def patchy : Sources where
  base := .obj [("app", .str "quiet"), ("engine", .obj [("snapshot_window", .int 3)]), ("logging", .obj [("file", .arr [])])]

/-- The window is reported, and the text and the list go unnoticed. A level of the application cannot be put in. -/
theorem load_reported_iff_patchy :
    IsLayer patchy.base ∧ IsLayer (patchy.overlay []) ∧
      (∃ merged, patchy.layered [] = .ok merged ∧ Loadable [] merged ∧ ∀ p : Problem, p.Wrong [] merged ↔ p = .window) ∧
      ¬((∃ s, patchy.load [("LOG_LEVEL", "INFO")] = .ok s) ∨
        ∃ found, patchy.load [("LOG_LEVEL", "INFO")] = .error (.invalid found)) := by
  have hbase : IsLayer patchy.base := .inr trivial
  have hoverlay : ∀ env, IsLayer (patchy.overlay env) := fun _ => .inl rfl
  refine ⟨hbase, hoverlay [], ?_, ?_⟩
  · obtain ⟨merged, hmerged, hiff, -, -, hfound⟩ := load_reported_iff hbase (hoverlay [])
    have hreported : patchy.load [] = .error (.invalid [.window]) := by rfl
    refine ⟨merged, hmerged, hiff.mp (.inr ⟨_, hreported⟩), fun p => ?_⟩
    obtain ⟨-, hwrong⟩ := hfound _ hreported
    rw [← hwrong p, List.mem_singleton]
  · obtain ⟨merged, hmerged, hiff, -, -, -⟩ := load_reported_iff hbase (hoverlay [("LOG_LEVEL", "INFO")])
    rw [hiff]
    intro hloadable
    cases hmerged
    exact hloadable.room .logLevel rfl ["app"] List.prefix_rfl (.str "quiet") rfl

/-- **Loading does not always end with settings or a report**: a section that is left empty in a layer does neither. -/
theorem not_always_reported :
    ¬∀ (sources : Sources) (env : Environment), IsLayer sources.base → IsLayer (sources.overlay env) →
      (∃ s, sources.load env = .ok s) ∨ ∃ found, sources.load env = .error (.invalid found) := by
  intro halways
  have hload : load { base := .obj [("app", .null)] } [] = .error .noEntries := by rfl
  have hreported := halways { base := .obj [("app", .null)] } [] (.inr trivial) (.inl rfl)
  rw [hload] at hreported
  rcases hreported with ⟨s, hs⟩ | ⟨found, hfound⟩
  · cases hs
  · cases hfound

end Sources

end TradingRules
