import TradingRules.Proofs.Config.Variables
import TradingRules.Proofs.Json.RoundTrip

/-!
# `Proofs.Config.Precedence` — which of two layers decides what stands at a path

A layer that is laid over another decides the paths at which it has a value that is no section: the value stands
there, and nothing stands below it, whatever the lower layer has. A section decides nothing by itself. Where the
upper layer has one, it is laid over that of the lower layer, and where it has come to an end, what the lower layer
has shows through.

Keys are taken to be distinct in every section of the upper layer. One that came twice would be laid over itself.

## Contents
* `Layer.lookup_merge` — one key of two layers;
* `Layer.merge_nil_left`, `Layer.merge_self` — layers that add nothing;
* `Layer.at?_merge_of_value`, `Layer.at?_merge_of_missing`, `Layer.at?_merge_of_section` — what stands at a path;
* `Layer.merge_decides` — all of it.
-/

namespace TradingRules

open Json (Unambiguous)

/-- The value is an object, so that paths lead on from it. -/
def Json.IsObject : Json → Prop
  | .obj _ => True
  | _ => False

theorem Json.isObject_iff {value : Json} : value.IsObject ↔ ∃ fields, value = .obj fields := by
  cases value <;> simp [Json.IsObject]

namespace Json.Unambiguous

variable {key : String} {value : Json} {fields : Layer}

theorem nodup (h : (Json.obj fields).Unambiguous) : (fields.map Prod.fst).Nodup := by
  cases h with
  | obj hkeys _ => exact hkeys

theorem of_mem (h : (Json.obj fields).Unambiguous) {f : String × Json} (hf : f ∈ fields) : f.2.Unambiguous := by
  cases h with
  | obj _ hfields => exact hfields f hf

/-- A field that is looked up is one of the fields. -/
theorem of_lookup (h : (Json.obj fields).Unambiguous) (hvalue : fields.lookup key = some value) :
    value.Unambiguous := by
  have hmem : (key, value) ∈ fields := (Assoc.lookup_eq_some_iff_mem h.nodup).mp hvalue
  exact h.of_mem hmem

/-- Every value inside is unambiguous as well. -/
theorem of_at? {keys : List String} {whole : Json} (h : whole.Unambiguous) (hvalue : Layer.at? keys whole = some value) :
    value.Unambiguous := by
  induction keys generalizing whole with
  | nil =>
      cases hvalue
      exact h
  | cons key keys ih =>
      obtain ⟨found, hfound, hrest⟩ := Option.bind_eq_some_iff.mp hvalue
      cases whole with
      | obj fields => exact ih (h.of_lookup hfound) hrest
      | _ => cases hfound

end Json.Unambiguous

namespace Layer

variable {key : String} {keys before : List String} {lower upper : Layer} {below : Option Json} {value : Json}

/-! ## One key -/

theorem merge_nil (lower : Layer) : merge lower [] = lower := by
  rw [merge]

theorem merge_cons (lower upper : Layer) (key : String) (value : Json) :
    merge lower ((key, value) :: upper)
      = merge (Assoc.insert lower key (mergeValue (lower.lookup key) value)) upper := by
  rw [merge]

/-- A value that is no section replaces what is below it. -/
theorem mergeValue_of_not_isObject (h : ¬value.IsObject) : mergeValue below value = value := by
  cases value with
  | obj fields => exact absurd trivial h
  | _ => rw [mergeValue]; exact nofun

theorem lookup_eq_none_of_not_mem (h : key ∉ lower.map Prod.fst) : lower.lookup key = none := by
  refine List.lookup_eq_none_iff.mpr fun entry hentry => ?_
  have hne : key ≠ entry.1 := fun heq => h (List.mem_map.mpr ⟨entry, hentry, heq.symm⟩)
  simpa using hne

/-- **One key of two layers.** What the upper layer has there is laid over what the lower one has. -/
theorem lookup_merge (hkeys : (upper.map Prod.fst).Nodup) (lower : Layer) (key : String) :
    (merge lower upper).lookup key =
      match upper.lookup key with
      | some value => some (mergeValue (lower.lookup key) value)
      | none => lower.lookup key := by
  induction upper generalizing lower with
  | nil =>
      rw [merge_nil]
      rfl
  | cons entry upper ih =>
      obtain ⟨other, value⟩ := entry
      obtain ⟨hfresh, hrest⟩ := List.nodup_cons.mp hkeys
      rw [merge_cons, ih hrest]
      by_cases hkey : other = key
      · subst hkey
        -- the key does not come again, so the rest of the layer leaves it
        have hnone : upper.lookup other = none := lookup_eq_none_of_not_mem hfresh
        rw [hnone, List.lookup_cons_self, Assoc.lookup_insert_self]
      · have hne : key ≠ other := fun heq => hkey heq.symm
        rw [Assoc.lookup_cons_of_ne hkey, Assoc.lookup_insert_of_ne hne]

/-! ## Layers that add nothing -/

/-- A layer without a key of the lower one comes after it. -/
theorem merge_of_fresh (hkeys : (upper.map Prod.fst).Nodup)
    (hfresh : ∀ entry ∈ upper, entry.1 ∉ lower.map Prod.fst) : merge lower upper = lower ++ upper := by
  induction upper generalizing lower with
  | nil => rw [merge_nil, List.append_nil]
  | cons entry upper ih =>
      obtain ⟨key, value⟩ := entry
      obtain ⟨hnew, hrest⟩ := List.nodup_cons.mp hkeys
      obtain ⟨hkey, hupper⟩ := List.forall_mem_cons.mp hfresh
      have hnone : lower.lookup key = none := lookup_eq_none_of_not_mem hkey
      have hvalue : mergeValue (lower.lookup key) value = value := by
        rw [hnone]
        cases value <;> rfl
      have hstill : ∀ entry ∈ upper, entry.1 ∉ (lower ++ [(key, value)]).map Prod.fst := by
        intro entry hentry hmem
        rw [List.map_append, List.mem_append, List.map_singleton, List.mem_singleton] at hmem
        rcases hmem with hmem | hmem
        · exact hupper entry hentry hmem
        · exact hnew (List.mem_map.mpr ⟨entry, hentry, hmem⟩)
      rw [merge_cons, hvalue, Assoc.insert_of_not_mem hkey, ih hrest hstill, List.append_assoc, List.singleton_append]

/-- **A layer over an empty one is itself.** -/
theorem merge_nil_left (hkeys : (upper.map Prod.fst).Nodup) : merge [] upper = upper := by
  have hfresh : ∀ entry ∈ upper, entry.1 ∉ ([] : Layer).map Prod.fst := fun _ _ => List.not_mem_nil
  rw [merge_of_fresh hkeys hfresh, List.nil_append]

/-- A layer whose values stand in the lower one already, and change nothing there, leaves it. -/
theorem merge_of_lookup
    (h : ∀ entry ∈ upper, lower.lookup entry.1 = some entry.2 ∧ mergeValue (some entry.2) entry.2 = entry.2) :
    merge lower upper = lower := by
  induction upper with
  | nil => exact merge_nil lower
  | cons entry upper ih =>
      obtain ⟨⟨hlookup, hvalue⟩, hupper⟩ := List.forall_mem_cons.mp h
      rw [merge_cons, hlookup, hvalue, Assoc.insert_of_lookup hlookup, ih hupper]

theorem mergeValue_self (h : value.Unambiguous) : mergeValue (some value) value = value := by
  induction h with
  | obj hkeys _ ih =>
      rw [mergeValue, merge_of_lookup]
      intro entry hentry
      exact ⟨(Assoc.lookup_eq_some_iff_mem hkeys).mpr hentry, ih entry hentry⟩
  | _ => rfl

/-- **A layer over itself is itself.** -/
theorem merge_self {layer : Layer} (h : (Json.obj layer).Unambiguous) : merge layer layer = layer := by
  have hself : mergeValue (some (.obj layer)) (.obj layer) = .obj layer := mergeValue_self h
  rw [mergeValue] at hself
  exact Json.obj.inj hself

/-! ## Paths -/

/-- The fields of a section that may be missing. What is no section has none. -/
def sectionOf : Option Json → Layer
  | some (.obj fields) => fields
  | _ => []

theorem sectionOf_of_ne (h : ∀ fields, below ≠ some (.obj fields)) : sectionOf below = [] := by
  unfold sectionOf
  split
  case h_1 fields => exact absurd rfl (h fields)
  case h_2 => rfl

/-- A section is laid over what is below it, be that a section or not. -/
theorem mergeValue_obj (hkeys : (upper.map Prod.fst).Nodup) :
    mergeValue below (.obj upper) = .obj (merge (sectionOf below) upper) := by
  by_cases hbelow : ∃ fields, below = some (.obj fields)
  · obtain ⟨fields, rfl⟩ := hbelow
    rw [mergeValue, sectionOf]
  · have hempty : sectionOf below = [] := sectionOf_of_ne fun fields hfields => hbelow ⟨fields, hfields⟩
    rw [hempty, merge_nil_left hkeys, mergeValue]
    exact fun fields hfields => hbelow ⟨fields, hfields⟩

/-- A path that leads on finds nothing in what is no section. -/
theorem at?_sectionOf (h : keys ≠ []) : at? keys (.obj (sectionOf below)) = below.bind (at? keys) := by
  unfold sectionOf
  obtain ⟨key, keys, rfl⟩ := List.exists_cons_of_ne_nil h
  split
  case h_1 fields => rfl
  case h_2 hother =>
    cases below with
    | none => rfl
    | some value =>
        cases value with
        | obj fields => exact absurd rfl (hother fields)
        | _ => rfl

theorem at?_cons_eq_some : at? (key :: keys) (.obj lower) = some value ↔
    ∃ found, lower.lookup key = some found ∧ at? keys found = some value := by
  rw [at?_cons, Option.bind_eq_some_iff]

/-- Nothing stands below a value that is no section. -/
theorem at?_of_not_isObject (h : ¬value.IsObject) (hkeys : keys ≠ []) : at? keys value = none := by
  obtain ⟨key, keys, rfl⟩ := List.exists_cons_of_ne_nil hkeys
  cases value with
  | obj fields => exact absurd trivial h
  | _ => rfl

theorem at?_append (before after : List String) (value : Json) :
    at? (before ++ after) value = (at? before value).bind (at? after) := by
  induction before generalizing value with
  | nil => rfl
  | cons key before ih =>
      show (value.field? key).bind (at? (before ++ after)) = ((value.field? key).bind (at? before)).bind (at? after)
      cases value.field? key with
      | none => rfl
      | some found => exact ih found

/-- Where the upper layer has a section, the path goes on in that section over the one below. -/
theorem at?_merge_cons {fields : Layer} (h : (Json.obj upper).Unambiguous)
    (hsection : upper.lookup key = some (.obj fields)) (keys : List String) :
    at? (key :: keys) (.obj (merge lower upper))
      = at? keys (.obj (merge (sectionOf (lower.lookup key)) fields)) := by
  have hfields : (Json.obj fields).Unambiguous := h.of_lookup hsection
  rw [at?_cons, lookup_merge h.nodup, hsection]
  show at? keys (mergeValue (lower.lookup key) (.obj fields)) = _
  rw [mergeValue_obj hfields.nodup]

/-- **A value of the upper layer stands where it stood**, whatever is below it. -/
theorem at?_merge_of_value (h : (Json.obj upper).Unambiguous) (hvalue : at? keys (.obj upper) = some value)
    (hplain : ¬value.IsObject) : at? keys (.obj (merge lower upper)) = some value := by
  induction keys generalizing lower upper with
  | nil =>
      cases hvalue
      exact absurd trivial hplain
  | cons key keys ih =>
      obtain ⟨found, hfound, hrest⟩ := at?_cons_eq_some.mp hvalue
      by_cases hobject : found.IsObject
      · obtain ⟨fields, rfl⟩ := Json.isObject_iff.mp hobject
        rw [at?_merge_cons h hfound]
        exact ih (h.of_lookup hfound) hrest
      · rw [at?_cons, lookup_merge h.nodup, hfound]
        show at? keys (mergeValue (lower.lookup key) found) = some value
        rw [mergeValue_of_not_isObject hobject]
        exact hrest

/-- **Nothing stands below a value of the upper layer.** -/
theorem at?_merge_of_value_before (h : (Json.obj upper).Unambiguous) (hbefore : before <+: keys)
    (hproper : before ≠ keys) (hvalue : at? before (.obj upper) = some value) (hplain : ¬value.IsObject) :
    at? keys (.obj (merge lower upper)) = none := by
  obtain ⟨after, rfl⟩ := hbefore
  have hafter : after ≠ [] := by
    rintro rfl
    exact hproper (List.append_nil before).symm
  rw [at?_append, at?_merge_of_value h hvalue hplain, Option.bind_some]
  exact at?_of_not_isObject hplain hafter

/-- **Where the upper layer has come to an end the lower one shows through.** -/
theorem at?_merge_of_missing (h : (Json.obj upper).Unambiguous) (hmissing : at? keys (.obj upper) = none)
    (hsections : ∀ before value, before <+: keys → at? before (.obj upper) = some value → value.IsObject) :
    at? keys (.obj (merge lower upper)) = at? keys (.obj lower) := by
  induction keys generalizing lower upper with
  | nil => cases hmissing
  | cons key keys ih =>
      cases hfound : upper.lookup key with
      | none => rw [at?_cons, at?_cons, lookup_merge h.nodup, hfound]
      | some found =>
          have hone : at? [key] (.obj upper) = some found := at?_cons_eq_some.mpr ⟨found, hfound, rfl⟩
          have hobject : found.IsObject := hsections [key] found (by simp) hone
          obtain ⟨fields, rfl⟩ := Json.isObject_iff.mp hobject
          rw [at?_cons, hfound, Option.bind_some] at hmissing
          have hkeys : keys ≠ [] := by
            rintro rfl
            cases hmissing
          have hrest : ∀ before value, before <+: keys → at? before (.obj fields) = some value → value.IsObject := by
            intro before value hbefore hvalue
            refine hsections (key :: before) value (List.cons_prefix_cons.mpr ⟨rfl, hbefore⟩) ?_
            exact at?_cons_eq_some.mpr ⟨.obj fields, hfound, hvalue⟩
          rw [at?_merge_cons h hfound, ih (h.of_lookup hfound) hmissing hrest, at?_sectionOf hkeys, at?_cons]

/-- **A section of the upper layer is laid over what the lower one has at its path.** -/
theorem at?_merge_of_section {fields : Layer} (h : (Json.obj upper).Unambiguous)
    (hsection : at? keys (.obj upper) = some (.obj fields)) :
    at? keys (.obj (merge lower upper)) = some (.obj (merge (sectionOf (at? keys (.obj lower))) fields)) := by
  induction keys generalizing lower upper with
  | nil =>
      cases hsection
      rfl
  | cons key keys ih =>
      obtain ⟨found, hfound, hrest⟩ := at?_cons_eq_some.mp hsection
      by_cases hkeys : keys = []
      · subst hkeys
        cases hrest
        rw [at?_merge_cons h hfound, at?_singleton]
        rfl
      · have hobject : found.IsObject := by
          by_contra hplain
          rw [at?_of_not_isObject hplain hkeys] at hrest
          cases hrest
        obtain ⟨inner, rfl⟩ := Json.isObject_iff.mp hobject
        rw [at?_merge_cons h hfound, ih (h.of_lookup hfound) hrest, at?_sectionOf hkeys, at?_cons]

/-! ## Both layers -/

/-- **What two layers come to at every path.** A value of the upper layer that is no section stands where it stood,
and nothing stands below it. A section of the upper layer is laid over the section that the lower one has at its path,
and stands as it is if there is none. All other paths find what they find in the lower layer. A layer over itself, over
an empty one and under an empty one is itself. -/
theorem merge_decides (lower : Layer) (h : (Json.obj upper).Unambiguous) :
    (∀ keys value, at? keys (.obj upper) = some value → ¬value.IsObject →
      at? keys (.obj (merge lower upper)) = some value) ∧
    (∀ keys before value, before <+: keys → before ≠ keys → at? before (.obj upper) = some value → ¬value.IsObject →
      at? keys (.obj (merge lower upper)) = none) ∧
    (∀ keys, at? keys (.obj upper) = none →
      (∀ before value, before <+: keys → at? before (.obj upper) = some value → value.IsObject) →
      at? keys (.obj (merge lower upper)) = at? keys (.obj lower)) ∧
    (∀ keys fields, at? keys (.obj upper) = some (.obj fields) →
      (∀ under, at? keys (.obj lower) = some (.obj under) →
        at? keys (.obj (merge lower upper)) = some (.obj (merge under fields))) ∧
      ((∀ under, at? keys (.obj lower) ≠ some (.obj under)) →
        at? keys (.obj (merge lower upper)) = some (.obj fields))) ∧
    merge upper upper = upper ∧ merge [] upper = upper ∧ merge lower [] = lower := by
  refine ⟨?value, ?below, ?missing, ?inner, merge_self h, merge_nil_left h.nodup, merge_nil lower⟩
  case value => exact fun keys value hvalue hplain => at?_merge_of_value h hvalue hplain
  case below =>
    exact fun keys before value hbefore hproper hvalue hplain =>
      at?_merge_of_value_before h hbefore hproper hvalue hplain
  case missing => exact fun keys hmissing hsections => at?_merge_of_missing h hmissing hsections
  case inner =>
    intro keys fields hsection
    have hmerged : at? keys (.obj (merge lower upper))
        = some (.obj (merge (sectionOf (at? keys (.obj lower))) fields)) := at?_merge_of_section h hsection
    refine ⟨?_, ?_⟩
    · intro under hunder
      rw [hmerged, hunder, sectionOf]
    · intro hother
      have hempty : sectionOf (at? keys (.obj lower)) = [] := sectionOf_of_ne hother
      have hfields : (Json.obj fields).Unambiguous := h.of_at? hsection
      rw [hmerged, hempty, merge_nil_left hfields.nodup]

/-- A layer with a section, a value and a number where sections may stand. -/
def day : Layer :=
  [("app", .obj [("log_level", .str "INFO")]), ("engine", .int 6),
    ("logging", .obj [("level", .str "INFO"), ("console", .obj [("enabled", .bool true), ("level", .str "INFO")])])]

/-- A layer to be laid over it: a value over a section, a section over a number, and sections over sections. -/
def night : Layer :=
  [("app", .str "quiet"), ("engine", .obj [("snapshot_window", .int 8)]),
    ("logging", .obj [("level", .str "ERROR"), ("console", .obj [("enabled", .bool false)])])]

/-- The value hides the section below it, the section the number; the console keeps the level that it had. -/
theorem merge_decides_night :
    (Json.obj night).Unambiguous ∧
      at? ["app"] (.obj (merge day night)) = some (.str "quiet") ∧
      at? ["app", "log_level"] (.obj (merge day night)) = none ∧
      at? ["engine"] (.obj (merge day night)) = some (.obj [("snapshot_window", .int 8)]) ∧
      at? ["logging", "console", "level"] (.obj (merge day night)) = some (.str "INFO") ∧
      merge night night = night := by
  have hengine : (Json.obj [("snapshot_window", .int 8)]).Unambiguous := .obj (by decide) (by simp [Unambiguous.int])
  have hconsole : (Json.obj [("enabled", .bool false)]).Unambiguous := .obj (by decide) (by simp [Unambiguous.bool])
  have hlogging : (Json.obj [("level", .str "ERROR"), ("console", .obj [("enabled", .bool false)])]).Unambiguous :=
    .obj (by decide) (by simp [Unambiguous.str, hconsole])
  have hunambiguous : (Json.obj night).Unambiguous :=
    .obj (by decide) (by simp [night, Unambiguous.str, hengine, hlogging])
  obtain ⟨hvalue, hbelow, hmissing, hinner, hself, -, -⟩ := merge_decides day hunambiguous
  have hsections : ∀ before value, before <+: ["logging", "console", "level"] →
      at? before (.obj night) = some value → value.IsObject := by
    intro before value hbefore hvalue
    simp only [List.prefix_cons_iff, List.prefix_nil] at hbefore
    rcases hbefore with rfl | ⟨_, rfl, rfl | ⟨_, rfl, rfl | ⟨_, rfl, rfl⟩⟩⟩ <;> cases hvalue <;> trivial
  refine ⟨hunambiguous, hvalue ["app"] _ rfl id, ?_, ?_, ?_, hself⟩
  · exact hbelow ["app", "log_level"] ["app"] _ (by decide) (by decide) rfl id
  · exact (hinner ["engine"] _ rfl).2 fun under hunder => by cases hunder
  · rw [hmissing ["logging", "console", "level"] rfl hsections]
    rfl

end Layer

end TradingRules
