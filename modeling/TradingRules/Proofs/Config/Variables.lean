import TradingRules.Proofs.Config.Loading

/-!
# `Proofs.Config.Variables` — which settings a variable decides

Each variable puts its value at a place of its own in the merged layers, whatever stands there. Nothing that is put in
later reaches that place, so the value is what the settings are read from: a window, a flag and the level of the
application are those of their variables. The level of the log has a place of its own as well, and no variable. It
falls back to that of the application, but only where no layer gives it: a level of the log in a layer stands against
the variable.

## Contents
* `Layer.Apart` — paths that do not touch;
* `Variable.at?_putAt_self`, `Variable.at?_putAt_of_apart` — what is put at a path, and all beside it;
* `Variable.at?_putAll_self`, `Variable.at?_putAll_of_apart` — the same of several variables;
* `Sources.load_variables` — the settings that were loaded;
* `Sources.not_always_decided` — a level that its variable does not decide.
-/

namespace TradingRules

open Fallible

/-! ## Paths -/

namespace Layer

/-- Neither of two paths leads on from the other. -/
def Apart (p q : List String) : Prop := ¬p <+: q ∧ ¬q <+: p

instance (p q : List String) : Decidable (Apart p q) := inferInstanceAs (Decidable (_ ∧ _))

theorem Apart.symm {p q : List String} (h : Apart p q) : Apart q p := ⟨h.2, h.1⟩

theorem Apart.tail {key : String} {p q : List String} (h : Apart (key :: p) (key :: q)) : Apart p q :=
  ⟨fun hpq => h.1 (List.cons_prefix_cons.mpr ⟨rfl, hpq⟩), fun hqp => h.2 (List.cons_prefix_cons.mpr ⟨rfl, hqp⟩)⟩

/-- Every path leads on from the empty one. -/
theorem Apart.ne_nil {p q : List String} (h : Apart p q) : p ≠ [] := by
  rintro rfl
  exact h.1 List.nil_prefix

variable {key other : String} {keys : List String} {fields : Layer} {value : Json}

theorem at?_cons (key : String) (keys : List String) (fields : Layer) :
    at? (key :: keys) (.obj fields) = (fields.lookup key).bind (at? keys) := rfl

theorem at?_insert_self : at? (key :: keys) (.obj (Assoc.insert fields key value)) = at? keys value := by
  rw [at?_cons, Assoc.lookup_insert_self, Option.bind_some]

theorem at?_insert_of_ne (h : other ≠ key) :
    at? (other :: keys) (.obj (Assoc.insert fields key value)) = at? (other :: keys) (.obj fields) := by
  rw [at?_cons, at?_cons, Assoc.lookup_insert_of_ne h]

/-- Below an empty section there is nothing. -/
theorem at?_empty (h : keys ≠ []) : at? keys (.obj []) = none := by
  obtain ⟨key, rest, rfl⟩ := List.exists_cons_of_ne_nil h
  rfl

/-- A section that is missing is as good as an empty one to a path that leads on. -/
theorem at?_section (h : keys ≠ []) : at? (key :: keys) (.obj fields) = at? keys ((fields.lookup key).getD (.obj [])) := by
  rw [at?_cons]
  cases fields.lookup key with
  | none => exact (at?_empty h).symm
  | some value => rfl

end Layer

/-! ## Putting values in -/

namespace Variable

variable {key : String} {value config put : Json} {names path : List String} {env : Environment} {text : String}

/-- A value is put into an object. -/
theorem putAt_nil_eq_ok (h : putAt key value [] config = .ok put) :
    ∃ fields, config = .obj fields ∧ put = .obj (Assoc.insert fields key value) := by
  cases config with
  | obj fields =>
      cases h
      exact ⟨fields, rfl, rfl⟩
  | _ => cases h

/-- A value is put into a section of an object, which may be missing. -/
theorem putAt_cons_eq_ok {name : String} (h : putAt key value (name :: names) config = .ok put) :
    ∃ fields below, config = .obj fields ∧ putAt key value names ((fields.lookup name).getD (.obj [])) = .ok below ∧
      put = .obj (Assoc.insert fields name below) := by
  cases config with
  | obj fields =>
      obtain ⟨below, hbelow, rfl⟩ := map_eq_ok.mp h
      exact ⟨fields, below, rfl, hbelow, rfl⟩
  | _ => cases h

/-- **What is put in is there.** -/
theorem at?_putAt_self (h : putAt key value names config = .ok put) : Layer.at? (names ++ [key]) put = some value := by
  induction names generalizing config put with
  | nil =>
      obtain ⟨fields, rfl, rfl⟩ := putAt_nil_eq_ok h
      exact Layer.at?_insert_self
  | cons name names ih =>
      obtain ⟨fields, below, rfl, hbelow, rfl⟩ := putAt_cons_eq_ok h
      exact Layer.at?_insert_self.trans (ih hbelow)

/-- **What is put in leaves all that is beside its path.** -/
theorem at?_putAt_of_apart (h : putAt key value names config = .ok put) (hapart : Layer.Apart path (names ++ [key])) :
    Layer.at? path put = Layer.at? path config := by
  induction names generalizing config put path with
  | nil =>
      obtain ⟨fields, rfl, rfl⟩ := putAt_nil_eq_ok h
      obtain ⟨other, rest, rfl⟩ := List.exists_cons_of_ne_nil hapart.ne_nil
      refine Layer.at?_insert_of_ne ?_
      rintro rfl
      exact hapart.2 (List.cons_prefix_cons.mpr ⟨rfl, List.nil_prefix⟩)
  | cons name names ih =>
      obtain ⟨fields, below, rfl, hbelow, rfl⟩ := putAt_cons_eq_ok h
      obtain ⟨other, rest, rfl⟩ := List.exists_cons_of_ne_nil hapart.ne_nil
      by_cases hname : other = name
      · subst hname
        have hrest : Layer.Apart rest (names ++ [key]) := hapart.tail
        rw [Layer.at?_insert_self, ih hbelow hrest, Layer.at?_section hrest.ne_nil]
      · exact Layer.at?_insert_of_ne hname

/-! ## Variables -/

/-- The path of the value that a variable replaces. -/
def place (v : Variable) : List String := v.path.1 ++ [v.path.2]

/-- The configuration with the values of several variables. -/
def putAll (vs : List Variable) (env : Environment) (config : Json) : Except ConfigError Json :=
  vs.foldlM (fun config v => v.put env config) config

/-- A variable that is set has put in its value. -/
theorem at?_put_self {v : Variable} (h : v.put env config = .ok put) (hset : env.lookup v.name = some text) :
    Layer.at? v.place put = some (v.parse text) := by
  unfold Variable.put at h
  rw [hset] at h
  exact at?_putAt_self h

theorem at?_put_of_apart {v : Variable} (h : v.put env config = .ok put) (hapart : Layer.Apart path v.place) :
    Layer.at? path put = Layer.at? path config := by
  unfold Variable.put at h
  split at h
  case h_1 =>
    cases h
    rfl
  case h_2 => exact at?_putAt_of_apart h hapart

variable {vs : List Variable}

theorem putAll_cons_eq_ok {v : Variable} :
    putAll (v :: vs) env config = .ok put ↔ ∃ first, v.put env config = .ok first ∧ putAll vs env first = .ok put := by
  unfold putAll
  rw [List.foldlM_cons, bind_eq_ok]

/-- Several variables leave all that is beside their paths. -/
theorem at?_putAll_of_apart (h : putAll vs env config = .ok put) (hapart : ∀ v ∈ vs, Layer.Apart path v.place) :
    Layer.at? path put = Layer.at? path config := by
  induction vs generalizing config with
  | nil =>
      cases pure_eq_ok.mp h
      rfl
  | cons v vs ih =>
      obtain ⟨hv, hvs⟩ := List.forall_mem_cons.mp hapart
      obtain ⟨first, hfirst, hrest⟩ := putAll_cons_eq_ok.mp h
      rw [ih hrest hvs, at?_put_of_apart hfirst hv]

/-- **Each of several variables that is set has put in its value**, if their paths do not touch. -/
theorem at?_putAll_self (h : putAll vs env config = .ok put)
    (hapart : vs.Pairwise fun v w => Layer.Apart v.place w.place) {v : Variable} (hv : v ∈ vs)
    (hset : env.lookup v.name = some text) : Layer.at? v.place put = some (v.parse text) := by
  induction vs generalizing config with
  | nil => exact absurd hv List.not_mem_nil
  | cons w vs ih =>
      obtain ⟨hw, hvs⟩ := List.pairwise_cons.mp hapart
      obtain ⟨first, hfirst, hrest⟩ := putAll_cons_eq_ok.mp h
      rcases List.mem_cons.mp hv with rfl | hv
      · rw [at?_putAll_of_apart hrest hw, at?_put_self hfirst hset]
      · exact ih hrest hvs hv

/-- A window that its variable has put in as an integer is the integer in the text. -/
theorem integer_of_parse_window {n : Int} (h : parse .window text = .int n) :
    Text.integer? (Text.anyScript text.toList) = some n := by
  unfold parse at h
  dsimp only at h
  split at h
  case h_1 m hm => rw [hm, Json.int.inj h]
  case h_2 => cases h

theorem mem_all (v : Variable) : v ∈ all := by
  cases v <;> decide

/-- No two variables replace the same value. -/
theorem pairwise_apart : all.Pairwise fun v w => Layer.Apart v.place w.place := by
  decide

end Variable

/-! ## Settings -/

/-- A flag in the configuration is the setting. -/
theorem Settings.fileEnabled_of_ofLayer {source : Layer} {s : Settings} (h : ofLayer source = .ok s) {enabled : Bool}
    (hgiven : Layer.at? ["logging", "file", "enabled"] (.obj source) = some (.bool enabled)) :
    s.log.fileEnabled = .bool enabled := by
  obtain ⟨accepted, -, hbuild⟩ := bind_eq_ok.mp h
  obtain ⟨app, -, hbuild⟩ := bind_eq_ok.mp hbuild
  obtain ⟨logging, hlogging, hbuild⟩ := bind_eq_ok.mp hbuild
  obtain ⟨file, hfile, hbuild⟩ := bind_eq_ok.mp hbuild
  obtain ⟨console, -, hbuild⟩ := bind_eq_ok.mp hbuild
  obtain ⟨engine, -, hbuild⟩ := bind_eq_ok.mp hbuild
  cases pure_eq_ok.mp hbuild
  rw [Layer.at?_of_fieldsOf hlogging, Layer.at?_of_fieldsOf hfile, Layer.at?_singleton] at hgiven
  show (given? "enabled" file).getD (.bool false) = .bool enabled
  unfold given?
  rw [hgiven]
  rfl

namespace Sources

variable {sources : Sources} {env : Environment} {s : Settings}

/-- Settings are loaded from the merged layers with the values of all variables. -/
theorem exists_layered (h : sources.load env = .ok s) :
    ∃ merged, sources.layered env = .ok merged ∧
      Variable.putAll Variable.all env (.obj merged) = .ok (.obj s.source) ∧ Settings.ofLayer s.source = .ok s := by
  obtain ⟨config, hconfig, hlayer⟩ := load_eq_ok.mp h
  obtain ⟨rfl, -⟩ := Settings.wellFormed_of_ofLayer hlayer
  obtain ⟨merged, hmerged, hput⟩ := bind_eq_ok.mp hconfig
  exact ⟨merged, hmerged, hput, hlayer⟩

/-- **What the variables decide.** In settings that were loaded, the window is the integer in its variable, and the
flag of the log's file and the level of the application are those in theirs, whatever the layers contain. The level of
the log is that in the variable, too, unless a layer gives it one: then it is that of the layers. -/
theorem load_variables (h : sources.load env = .ok s) :
    (∀ text, env.lookup "SIGNAL_RULES_SNAPSHOT_WINDOW" = some text →
      Text.integer? (Text.anyScript text.toList) = some s.window) ∧
    (∀ text, env.lookup "SIGNAL_RULES_LOG_FILE_ENABLED" = some text → s.log.fileEnabled = .bool (parseFlag text)) ∧
    ∀ text, env.lookup "LOG_LEVEL" = some text →
      s.appLevel = Text.capitals text ∧
      ∃ merged, sources.layered env = .ok merged ∧
        (Layer.at? ["logging", "level"] (.obj merged) = none → s.log.level = Text.capitals text) ∧
        ∀ level, Layer.at? ["logging", "level"] (.obj merged) = some level → level = .str s.log.level := by
  obtain ⟨merged, hmerged, hput, hlayer⟩ := exists_layered h
  obtain ⟨-, -, hsource⟩ := Settings.wellFormed_of_ofLayer hlayer
  have hself : ∀ (v : Variable) text, env.lookup v.name = some text →
      Layer.at? v.place (.obj s.source) = some (v.parse text) :=
    fun v _ => Variable.at?_putAll_self hput Variable.pairwise_apart v.mem_all
  refine ⟨?window, ?fileEnabled, ?level⟩
  case window =>
    intro text hset
    have hgiven : Layer.at? ["engine", "snapshot_window"] (.obj s.source) = some (Variable.window.parse text) :=
      hself .window text hset
    have hwindow := hsource.window
    rw [hgiven, Option.getD_some] at hwindow
    exact Variable.integer_of_parse_window hwindow
  case fileEnabled =>
    intro text hset
    exact Settings.fileEnabled_of_ofLayer hlayer (hself .fileEnabled text hset)
  case level =>
    intro text hset
    have hgiven : Layer.at? ["app", "log_level"] (.obj s.source) = some (.str (Text.capitals text)) :=
      hself .logLevel text hset
    have happ := hsource.appLevel
    rw [hgiven, Option.getD_some] at happ
    have happLevel : Text.capitals text = s.appLevel := Json.str.inj happ
    -- no variable has the place of the log's own level
    have hsame : Layer.at? ["logging", "level"] (.obj s.source) = Layer.at? ["logging", "level"] (.obj merged) :=
      Variable.at?_putAll_of_apart hput (by decide)
    have hlevel := hsource.level
    rw [hsame] at hlevel
    refine ⟨happLevel.symm, merged, hmerged, ?_, ?_⟩
    · intro hnone
      rw [hnone, Option.getD_none] at hlevel
      rw [happLevel, Json.str.inj hlevel]
    · intro level hgiven
      rw [hgiven, Option.getD_some] at hlevel
      exact hlevel

/-- A level, a window and a flag. -/
def threeVariables : Environment :=
  [("LOG_LEVEL", "warning"), ("SIGNAL_RULES_SNAPSHOT_WINDOW", " 8 "), ("SIGNAL_RULES_LOG_FILE_ENABLED", "Yes")]

/-- Over no layers the variables decide all of these settings. Over the layers that come with the library the level of
the log is that of a layer. -/
theorem load_variables_layers :
    (∃ s, load {} threeVariables = .ok s ∧ s.window = 8 ∧ s.log.fileEnabled = .bool true ∧ s.appLevel = "WARNING" ∧
      s.log.level = "WARNING") ∧
    ∃ s, bundled.load threeVariables = .ok s ∧ s.appLevel = "WARNING" ∧ s.log.level = "DEBUG" := by
  have hcapitals : Text.capitals "warning" = "WARNING" := by decide +kernel
  constructor
  · obtain ⟨s, hs, -⟩ := exists_ok_of_any (x := load {} threeVariables) (p := fun _ => true) (by decide +kernel)
    obtain ⟨hwindow, hfile, hlevel⟩ := load_variables hs
    obtain ⟨happ, merged, hmerged, hnone, -⟩ := hlevel "warning" rfl
    have height : Text.integer? (Text.anyScript " 8 ".toList) = some 8 := by decide +kernel
    have hyes : parseFlag "Yes" = true := by decide +kernel
    have hwindow := hwindow " 8 " rfl
    have hlayers : Layer.at? ["logging", "level"] (.obj merged) = none := by
      cases hmerged
      rfl
    rw [height, Option.some.injEq] at hwindow
    refine ⟨s, hs, hwindow.symm, ?_, happ.trans hcapitals, (hnone hlayers).trans hcapitals⟩
    rw [hfile "Yes" rfl, hyes]
  · obtain ⟨s, hs, -⟩ := exists_ok_of_any (x := bundled.load threeVariables) (p := fun _ => true) (by decide +kernel)
    obtain ⟨-, -, hlevel⟩ := load_variables hs
    obtain ⟨happ, merged, hmerged, -, hlayers⟩ := hlevel "warning" rfl
    have hgiven : Layer.at? ["logging", "level"] (.obj merged) = some (.str "DEBUG") := by
      cases hmerged
      rfl
    exact ⟨s, hs, happ.trans hcapitals, (Json.str.inj (hlayers _ hgiven)).symm⟩

/-- **The variable does not always decide the level of the log**: over the layers that come with the library it does
not. -/
theorem not_always_decided :
    ¬∀ (sources : Sources) (env : Environment) (s : Settings) (text : String), sources.load env = .ok s →
      env.lookup "LOG_LEVEL" = some text → s.appLevel = Text.capitals text ∧ s.log.level = Text.capitals text := by
  intro halways
  obtain ⟨s, hs, hlevel⟩ := exists_ok_of_any (x := bundled.load [("LOG_LEVEL", "ERROR")])
    (p := fun s => s.log.level == "DEBUG") (by decide +kernel)
  obtain ⟨-, hsame⟩ := halways bundled _ s "ERROR" hs rfl
  rw [hsame] at hlevel
  exact absurd hlevel (by decide +kernel)

end Sources

end TradingRules
