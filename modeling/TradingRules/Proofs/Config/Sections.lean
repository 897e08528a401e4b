import TradingRules.Proofs.Config.Precedence

/-!
# `Proofs.Config.Sections` — what may stand where a section should be

A path of keys leads on from an object, and from a section that is missing as from an empty one. Whether a value can be
put in at a path depends on nothing but the kind of what stands on the way to it (`Variable.exists_putAt_iff`), and it
changes nothing but what is below the path: on the way sections come into being, and everywhere else the same stands as
before (`Variable.standsAs_putAt_iff`). So several variables can be put into a configuration exactly if there is room
in it for each of them.

## Contents
* `Layer.StandsAs` — what may stand at a path;
* `ConfigError.Stray` — errors that are no report of checked values;
* `Variable.HasRoom`, `Variable.exists_putAll_iff` — which variables can be put in;
* `Variable.standsAs_putAll_iff`, `Variable.at?_putAll_of_unset` — what they leave as it is.
-/

namespace TradingRules

open Fallible

/-! ## Sections -/

/-- Whatever stands at a path has a property. Nothing need stand there. -/
def Layer.StandsAs (P : Json → Prop) (path : List String) (config : Json) : Prop :=
  ∀ value, Layer.at? path config = some value → P value

namespace Layer

variable {P : Json → Prop} {key other : String} {keys path : List String} {fields : Layer} {value : Json}

theorem standsAs_nil : StandsAs P [] value ↔ P value :=
  ⟨fun h => h value rfl, fun h _ hvalue => Option.some.inj hvalue ▸ h⟩

/-- A section that is missing is as good as an empty one. -/
theorem standsAs_cons (hempty : P (.obj [])) :
    StandsAs P (key :: keys) (.obj fields) ↔ StandsAs P keys ((fields.lookup key).getD (.obj [])) := by
  by_cases hkeys : keys = []
  · subst hkeys
    unfold StandsAs
    rw [at?_singleton]
    cases fields.lookup key <;> simp [at?, hempty]
  · unfold StandsAs
    rw [at?_section hkeys]

theorem at?_field (key : String) (value : Json) : at? [key] value = value.field? key := by
  show (value.field? key).bind some = value.field? key
  cases value.field? key <;> rfl

theorem standsAs_insert_self :
    StandsAs P (key :: keys) (.obj (Assoc.insert fields key value)) ↔ StandsAs P keys value := by
  unfold StandsAs
  rw [at?_insert_self]

theorem standsAs_insert_of_ne (h : other ≠ key) :
    StandsAs P (other :: keys) (.obj (Assoc.insert fields key value)) ↔ StandsAs P (other :: keys) (.obj fields) := by
  unfold StandsAs
  rw [at?_insert_of_ne h]

end Layer

open Layer (StandsAs)

/-- The error is not a report of checked values. -/
def ConfigError.Stray (e : ConfigError) : Prop := ∀ problems, e ≠ .invalid problems

/-! ## Variables -/

namespace Variable

variable {P : Json → Prop} {key : String} {value config put : Json} {names path : List String} {env : Environment}
  {vs : List Variable} {v : Variable} {e : ConfigError}

/-- A value can be put where every section on the way is an object or missing. -/
theorem exists_putAt_iff :
    (∃ put, putAt key value names config = .ok put) ↔
      ∀ before, before <+: names → StandsAs Json.IsObject before config := by
  induction names generalizing config with
  | nil =>
      have hroot : (∀ before, before <+: [] → StandsAs Json.IsObject before config) ↔ config.IsObject := by
        simp only [List.prefix_nil, forall_eq, Layer.standsAs_nil]
      rw [hroot]
      cases config <;> simp [putAt, Json.IsObject]
  | cons name names ih =>
      constructor
      · rintro ⟨put, h⟩ before hbefore
        obtain ⟨fields, below, rfl, hbelow, rfl⟩ := putAt_cons_eq_ok h
        rcases List.prefix_cons_iff.mp hbefore with rfl | ⟨rest, rfl, hrest⟩
        · exact Layer.standsAs_nil.mpr trivial
        · exact (Layer.standsAs_cons trivial).mpr (ih.mp ⟨below, hbelow⟩ rest hrest)
      · intro h
        have hroot : config.IsObject := Layer.standsAs_nil.mp (h [] List.nil_prefix)
        obtain ⟨fields, rfl⟩ := Json.isObject_iff.mp hroot
        have hrest : ∀ rest, rest <+: names →
            StandsAs Json.IsObject rest ((fields.lookup name).getD (.obj [])) := by
          intro rest hrest
          exact (Layer.standsAs_cons trivial).mp (h (name :: rest) (List.cons_prefix_cons.mpr ⟨rfl, hrest⟩))
        obtain ⟨below, hbelow⟩ := ih.mpr hrest
        exact ⟨_, map_eq_ok.mpr ⟨below, hbelow, rfl⟩⟩

theorem stray_of_putAt (h : putAt key value names config = .error e) : e.Stray := by
  induction names generalizing config with
  | nil => cases config <;> cases h <;> exact fun _ => nofun
  | cons name names ih =>
      cases config with
      | obj fields => exact ih (map_eq_error.mp h)
      | _ => cases h; exact fun _ => nofun

/-- **What is put in leaves the kind of everything that is not below it.** On the way to it sections come into being
where none were. -/
theorem standsAs_putAt_iff (hobject : ∀ fields, P (.obj fields)) (h : putAt key value names config = .ok put)
    (hclear : ¬names ++ [key] <+: path) : StandsAs P path put ↔ StandsAs P path config := by
  induction names generalizing config put path with
  | nil =>
      obtain ⟨fields, rfl, rfl⟩ := putAt_nil_eq_ok h
      cases path with
      | nil => exact iff_of_true (Layer.standsAs_nil.mpr (hobject _)) (Layer.standsAs_nil.mpr (hobject _))
      | cons other rest =>
          have hne : other ≠ key := by
            rintro rfl
            exact hclear (List.cons_prefix_cons.mpr ⟨rfl, List.nil_prefix⟩)
          exact Layer.standsAs_insert_of_ne hne
  | cons name names ih =>
      obtain ⟨fields, below, rfl, hbelow, rfl⟩ := putAt_cons_eq_ok h
      cases path with
      | nil => exact iff_of_true (Layer.standsAs_nil.mpr (hobject _)) (Layer.standsAs_nil.mpr (hobject _))
      | cons other rest =>
          by_cases hname : other = name
          · subst hname
            have hrest : ¬names ++ [key] <+: rest := fun hpre => hclear (List.cons_prefix_cons.mpr ⟨rfl, hpre⟩)
            rw [Layer.standsAs_insert_self, ih hbelow hrest, Layer.standsAs_cons (hobject [])]
          · exact Layer.standsAs_insert_of_ne hname

theorem standsAs_put_iff (hobject : ∀ fields, P (.obj fields)) (h : v.put env config = .ok put)
    (hclear : ¬v.place <+: path) : StandsAs P path put ↔ StandsAs P path config := by
  unfold Variable.put at h
  split at h
  case h_1 =>
    cases h
    rfl
  case h_2 => exact standsAs_putAt_iff hobject h hclear

/-- **Several variables leave the kind of everything that is not below their values.** -/
theorem standsAs_putAll_iff (hobject : ∀ fields, P (.obj fields)) (h : putAll vs env config = .ok put)
    (hclear : ∀ v ∈ vs, ¬v.place <+: path) : StandsAs P path put ↔ StandsAs P path config := by
  induction vs generalizing config with
  | nil =>
      cases pure_eq_ok.mp h
      rfl
  | cons v vs ih =>
      obtain ⟨hv, hvs⟩ := List.forall_mem_cons.mp hclear
      obtain ⟨first, hfirst, hrest⟩ := putAll_cons_eq_ok.mp h
      rw [ih hrest hvs, standsAs_put_iff hobject hfirst hv]

/-- The configuration has room for a variable: if it is set, the sections on its way are objects or missing. -/
def HasRoom (env : Environment) (config : Json) (v : Variable) : Prop :=
  (env.lookup v.name).isSome → ∀ before, before <+: v.path.1 → StandsAs Json.IsObject before config

theorem exists_put_iff : (∃ put, v.put env config = .ok put) ↔ v.HasRoom env config := by
  unfold Variable.put HasRoom
  cases env.lookup v.name with
  | none => simp
  | some text => simpa using exists_putAt_iff

theorem hasRoom_put_iff {w : Variable} (h : w.put env config = .ok put) (hapart : Layer.Apart w.place v.place) :
    v.HasRoom env put ↔ v.HasRoom env config := by
  unfold HasRoom
  refine imp_congr_right fun _ => forall₂_congr fun before hbefore => ?_
  -- what leads on from the other variable's place does not lead to this one's
  have hclear : ¬w.place <+: before := by
    intro hplace
    have hway : before <+: v.place := hbefore.trans (List.prefix_append v.path.1 [v.path.2])
    exact hapart.1 (hplace.trans hway)
  exact standsAs_put_iff (fun _ => trivial) h hclear

/-- **Variables whose places do not touch can be put in if there is room for each of them.** -/
theorem exists_putAll_iff (hapart : vs.Pairwise fun v w => Layer.Apart v.place w.place) :
    (∃ put, putAll vs env config = .ok put) ↔ ∀ v ∈ vs, v.HasRoom env config := by
  induction vs generalizing config with
  | nil => exact iff_of_true ⟨config, rfl⟩ (List.forall_mem_nil _)
  | cons v vs ih =>
      obtain ⟨hv, hvs⟩ := List.pairwise_cons.mp hapart
      rw [List.forall_mem_cons, ← exists_put_iff]
      constructor
      · rintro ⟨put, h⟩
        obtain ⟨first, hfirst, hrest⟩ := putAll_cons_eq_ok.mp h
        refine ⟨⟨first, hfirst⟩, fun w hw => ?_⟩
        exact (hasRoom_put_iff hfirst (hv w hw)).mp ((ih hvs).mp ⟨put, hrest⟩ w hw)
      · rintro ⟨⟨first, hfirst⟩, hroom⟩
        have hrest : ∀ w ∈ vs, w.HasRoom env first := fun w hw => (hasRoom_put_iff hfirst (hv w hw)).mpr (hroom w hw)
        obtain ⟨put, hput⟩ := (ih hvs).mpr hrest
        exact ⟨put, putAll_cons_eq_ok.mpr ⟨first, hfirst, hput⟩⟩

theorem stray_of_put (h : v.put env config = .error e) : e.Stray := by
  unfold Variable.put at h
  split at h
  case h_1 => cases h
  case h_2 => exact stray_of_putAt h

theorem stray_of_putAll (h : putAll vs env config = .error e) : e.Stray := by
  induction vs generalizing config with
  | nil => cases h
  | cons v vs ih =>
      unfold putAll at h
      rw [List.foldlM_cons] at h
      rcases bind_eq_error.mp h with hfirst | ⟨first, -, hrest⟩
      · exact stray_of_put hfirst
      · exact ih hrest

/-- Variables that are not set, and those whose places are beside a path, leave what stands there. -/
theorem at?_putAll_of_unset (h : putAll vs env config = .ok put)
    (hclear : ∀ v ∈ vs, env.lookup v.name = none ∨ Layer.Apart path v.place) :
    Layer.at? path put = Layer.at? path config := by
  induction vs generalizing config with
  | nil =>
      cases pure_eq_ok.mp h
      rfl
  | cons v vs ih =>
      obtain ⟨hv, hvs⟩ := List.forall_mem_cons.mp hclear
      obtain ⟨first, hfirst, hrest⟩ := putAll_cons_eq_ok.mp h
      rw [ih hrest hvs]
      rcases hv with hunset | hapart
      · unfold Variable.put at hfirst
        rw [hunset] at hfirst
        cases hfirst
        rfl
      · exact at?_put_of_apart hfirst hapart

end Variable

end TradingRules
