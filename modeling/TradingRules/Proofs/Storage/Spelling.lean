import Mathlib.Data.List.Forall2
import Mathlib.Data.List.Nodup
import TradingRules.Proofs.Fallible
import TradingRules.Rule.Wire

/-!
# `Proofs.Storage.Spelling` — one document in many spellings

A stored document may be spelled in many ways and mean the same: a key in camel case or in snake case, each on
its own and at every depth, a crossing under its current or its older name, the fields of an object in any order.
What is looked up under a key is found under each spelling of it, because no two spellings of different keys are
the same.

## Contents
* `Spelling`, `firstSpelling` — the spellings of a key;
* `Respelled` — a document in other spellings; `Json.Fixed` — a value that has only one;
* `Stored`, `Stored.exists_find?`, `Stored.read_eq` — the fields of an object in another spelling.
-/

namespace TradingRules

/-! ## Keys -/

namespace Key

/-- The key of the tag. -/
def tag : Key := .plain "type"

/-- The keys that have two spellings. -/
def spelledTwice : List Key :=
  [indicator, target, targetField, targetIndex, price, number, side, active, buying, selling]

/-- The keys under which anything is stored. -/
def stored : List Key :=
  spelledTwice ++ [tag, field, operator, value, index, logic, priority, conditions]

end Key

/-- A key in the same spelling, or in its second one. -/
inductive Spelling : String → String → Prop
  | same (name : String) : Spelling name name
  | snake (key : Key) (h : key ∈ Key.spelledTwice) : Spelling key.camel key.snake

/-- The first spelling of a key, from any of its spellings. -/
def firstSpelling (name : String) : String :=
  ((Key.spelledTwice.find? (·.snake == name)).map (·.camel)).getD name

theorem firstSpelling_stored : ∀ key ∈ Key.stored,
    firstSpelling key.camel = key.camel ∧ firstSpelling key.snake = key.camel := by
  decide +kernel

/-- A key that is spelled twice is known by its first spelling. -/
theorem eq_of_camel : ∀ key ∈ Key.stored, ∀ other ∈ Key.spelledTwice, other.camel = key.camel → other = key := by
  decide +kernel

theorem Spelling.firstSpelling_eq {name name' : String} (h : Spelling name name') :
    firstSpelling name' = firstSpelling name := by
  cases h with
  | same => rfl
  | snake key hkey =>
      obtain ⟨hcamel, hsnake⟩ := firstSpelling_stored _ (List.mem_append_left _ hkey)
      rw [hcamel, hsnake]

/-- A key that is stored is spelled in one of its two ways. -/
theorem Spelling.eq_or_eq {key : Key} (hkey : key ∈ Key.stored) {name : String} (h : Spelling key.camel name) :
    name = key.camel ∨ name = key.snake := by
  generalize hcamel : key.camel = camel at h
  cases h with
  | same => exact .inl rfl
  | snake other hother =>
      have heq : other = key := eq_of_camel key hkey other hother hcamel.symm
      exact .inr (by rw [heq])

/-! ## Documents -/

/-- The name of a crossing in older documents. -/
def Crossing.olderName : Crossing → String
  | .above => Comparison.gt.name
  | .below => Comparison.lt.name

/-- The object is a stored crossing. -/
def IsCrossing (fields : List (String × Json)) : Prop := fields.lookup "type" = some (.str LeafKind.cross.name)

mutual

/-- A document in other spellings. -/
inductive Respelled : Json → Json → Prop
  | same (value : Json) : Respelled value value
  | arr {items items' : List Json} (h : RespelledItems items items') : Respelled (.arr items) (.arr items')
  | obj {fields fields' reordered : List (String × Json)} (h : RespelledFields (IsCrossing fields) fields fields')
      (hperm : fields'.Perm reordered) : Respelled (.obj fields) (.obj reordered)

/-- Several documents in other spellings. -/
inductive RespelledItems : List Json → List Json → Prop
  | nil : RespelledItems [] []
  | cons {item item' : Json} {items items' : List Json} (hitem : Respelled item item')
      (hitems : RespelledItems items items') : RespelledItems (item :: items) (item' :: items')

/-- The fields of an object in other spellings. Only that of a crossing has an older name for its operator. -/
inductive RespelledFields : Prop → List (String × Json) → List (String × Json) → Prop
  | nil {crossing : Prop} : RespelledFields crossing [] []
  | field {crossing : Prop} {name name' : String} {value value' : Json} {fields fields' : List (String × Json)}
      (hname : Spelling name name') (hvalue : Respelled value value')
      (hfields : RespelledFields crossing fields fields') :
      RespelledFields crossing ((name, value) :: fields) ((name', value') :: fields')
  | older {crossing : Prop} (c : Crossing) {fields fields' : List (String × Json)} (hcrossing : crossing)
      (hfields : RespelledFields crossing fields fields') :
      RespelledFields crossing (("operator", .str c.name) :: fields) (("operator", .str c.olderName) :: fields')

end

/-- One field in another spelling. -/
inductive RespelledField (crossing : Prop) : String × Json → String × Json → Prop
  | field {name name' : String} {value value' : Json} (hname : Spelling name name')
      (hvalue : Respelled value value') : RespelledField crossing (name, value) (name', value')
  | older (c : Crossing) (hcrossing : crossing) :
      RespelledField crossing ("operator", .str c.name) ("operator", .str c.olderName)

theorem RespelledItems.forall₂ {items items' : List Json} (h : RespelledItems items items') :
    List.Forall₂ Respelled items items' := by
  induction items generalizing items' with
  | nil =>
      cases h
      exact .nil
  | cons item items ih =>
      cases h with
      | cons hitem hitems => exact .cons hitem (ih hitems)

theorem RespelledFields.forall₂ {crossing : Prop} {fields fields' : List (String × Json)}
    (h : RespelledFields crossing fields fields') : List.Forall₂ (RespelledField crossing) fields fields' := by
  induction fields generalizing fields' with
  | nil =>
      cases h
      exact .nil
  | cons f fields ih =>
      cases h with
      | field hname hvalue hfields => exact .cons (.field hname hvalue) (ih hfields)
      | older c hcrossing hfields => exact .cons (.older c hcrossing) (ih hfields)

/-- A list in another spelling is a list of items in other spellings. -/
theorem Respelled.of_arr {items : List Json} {d : Json} (h : Respelled (.arr items) d) :
    ∃ items', d = .arr items' ∧ List.Forall₂ Respelled items items' := by
  cases h with
  | same => exact ⟨items, rfl, List.forall₂_same.mpr fun item _ => .same item⟩
  | arr hitems => exact ⟨_, rfl, hitems.forall₂⟩

/-- An object in another spelling has fields in other spellings. -/
theorem Respelled.of_obj {fields : List (String × Json)} {d : Json} (h : Respelled (.obj fields) d) :
    ∃ fields' reordered, d = .obj reordered ∧
      List.Forall₂ (RespelledField (IsCrossing fields)) fields fields' ∧ fields'.Perm reordered := by
  cases h with
  | same =>
      exact ⟨fields, fields, rfl, List.forall₂_same.mpr fun f _ => .field (.same f.1) (.same f.2), List.Perm.refl _⟩
  | obj hfields hperm => exact ⟨_, _, rfl, hfields.forall₂, hperm⟩

theorem RespelledField.firstSpelling_eq {crossing : Prop} {f g : String × Json} (h : RespelledField crossing f g) :
    firstSpelling g.1 = firstSpelling f.1 := by
  cases h with
  | field hname _ => exact hname.firstSpelling_eq
  | older => rfl

theorem RespelledField.eq_or_eq {crossing : Prop} {key : Key} (hkey : key ∈ Key.stored) {value : Json}
    {g : String × Json} (h : RespelledField crossing (key.camel, value) g) : g.1 = key.camel ∨ g.1 = key.snake := by
  generalize hf : (key.camel, value) = f at h
  cases h with
  | field hname _ =>
      cases hf
      exact hname.eq_or_eq hkey
  | older => exact .inl (congrArg Prod.fst hf).symm

/-! ## Values with one spelling -/

namespace Json

/-- A value has no other spelling. -/
def Fixed (value : Json) : Prop := ∀ d, Respelled value d → d = value

theorem fixed_null : Fixed .null := by
  rintro d ⟨⟩
  rfl

theorem fixed_bool (b : Bool) : Fixed (.bool b) := by
  rintro d ⟨⟩
  rfl

theorem fixed_int (n : Int) : Fixed (.int n) := by
  rintro d ⟨⟩
  rfl

theorem fixed_float (x : Float) : Fixed (.float x) := by
  rintro d ⟨⟩
  rfl

theorem fixed_str (s : String) : Fixed (.str s) := by
  rintro d ⟨⟩
  rfl

theorem fixed_arr {items : List Json} (h : ∀ item ∈ items, item.Fixed) : Fixed (.arr items) := by
  intro d hd
  obtain ⟨items', rfl, hitems⟩ := hd.of_arr
  have heq : List.Forall₂ (fun item item' => item' = item) items items' :=
    ((List.forall₂_and_left _ _).mpr ⟨h, hitems⟩).imp fun _ _ hitem => hitem.1 _ hitem.2
  have hsame : items' = items := by
    rw [← List.forall₂_eq_eq_eq]
    exact heq.flip
  rw [hsame]

end Json

/-- A field that has no older name has a value in another spelling. -/
theorem RespelledField.respelled {crossing : Prop} {name : String} {value : Json} {g : String × Json}
    (h : RespelledField crossing (name, value) g) (hname : crossing → name ≠ "operator") :
    Respelled value g.2 := by
  cases h with
  | field _ hvalue => exact hvalue
  | older c hcrossing => exact absurd rfl (hname hcrossing)

/-- Such a field keeps a value that has one spelling. -/
theorem RespelledField.value_eq {crossing : Prop} {name : String} {value : Json} {g : String × Json}
    (h : RespelledField crossing (name, value) g) (hfixed : value.Fixed) (hname : crossing → name ≠ "operator") :
    g.2 = value :=
  hfixed _ (h.respelled hname)

/-! ## Fields -/

/-- No key of an object occurs twice, in whatever spelling. -/
def DistinctKeys (fields : List (String × Json)) : Prop := (fields.map fun f => firstSpelling f.1).Nodup

/-- A field is found under the key in one of whose spellings it stands. -/
theorem Key.find?_eq_some {key : Key} (hkey : key ∈ Key.stored) {fields : List (String × Json)}
    (hdistinct : DistinctKeys fields) {used : String} {value : Json} (hmem : (used, value) ∈ fields)
    (hused : used = key.camel ∨ used = key.snake) : key.find? fields = some (used, value) := by
  obtain ⟨hcamel, hsnake⟩ := firstSpelling_stored key hkey
  have hfirst : firstSpelling used = key.camel := by
    rcases hused with rfl | rfl
    · exact hcamel
    · exact hsnake
  -- whatever stands under a spelling of the key is this field
  have hunique : ∀ {other value'}, fields.lookup other = some value' → firstSpelling other = key.camel →
      (other, value') = (used, value) := by
    intro other value' hlookup hother
    obtain ⟨before, after, rfl, -⟩ := List.lookup_eq_some_iff.mp hlookup
    exact List.inj_on_of_nodup_map hdistinct (List.mem_append_right _ List.mem_cons_self) hmem
      (hother.trans hfirst.symm)
  have hfound : ∃ value', fields.lookup used = some value' := by
    refine Option.ne_none_iff_exists'.mp ?_
    intro hnone
    simpa using List.lookup_eq_none_iff.mp hnone _ hmem
  unfold find?
  split
  case h_1 value' hlookup => rw [hunique hlookup hcamel]
  case h_2 hnone =>
    obtain ⟨value', hlookup⟩ := hfound
    rcases hused with rfl | rfl
    · rw [hnone] at hlookup
      cases hlookup
    · rw [hlookup, Option.map_some, hunique hlookup hsnake]

/-- The fields of a stored object and those of the object in another spelling. -/
structure Stored (fields reordered : List (String × Json)) : Prop where
  respelled : Respelled (.obj fields) (.obj reordered)
  distinct : DistinctKeys fields

/-- A stored object in another spelling is an object again. -/
theorem Respelled.exists_stored {fields : List (String × Json)} {d : Json} (h : Respelled (.obj fields) d)
    (hdistinct : DistinctKeys fields) : ∃ reordered, d = .obj reordered ∧ Stored fields reordered := by
  obtain ⟨_, reordered, rfl, -⟩ := h.of_obj
  exact ⟨reordered, rfl, h, hdistinct⟩

namespace Stored

variable {α : Type} {fields reordered : List (String × Json)} {key : Key} {value : Json} {reader : Json → Checked α}
  {a default : α}

/-- **A field of a stored object** is found in another spelling under its key. -/
theorem exists_find? (h : Stored fields reordered) (hkey : key ∈ Key.stored)
    (hvalue : fields.lookup key.camel = some value) :
    ∃ used value', key.find? reordered = some (used, value') ∧
      RespelledField (IsCrossing fields) (key.camel, value) (used, value') := by
  obtain ⟨fields', _, heq, hfields, hperm⟩ := h.respelled.of_obj
  cases heq
  have hdistinct : DistinctKeys reordered := by
    -- a respelled key has the same first spelling, and reordering brings no key in twice
    have hspellings : fields'.map (fun f => firstSpelling f.1) = fields.map fun f => firstSpelling f.1 := by
      rw [← List.forall₂_eq_eq_eq, List.forall₂_map_left_iff, List.forall₂_map_right_iff]
      exact hfields.flip.imp fun _ _ hfield => hfield.firstSpelling_eq
    have hdistinct' := h.distinct
    unfold DistinctKeys at hdistinct' ⊢
    rw [← hspellings] at hdistinct'
    exact (hperm.map _).nodup_iff.mp hdistinct'
  obtain ⟨before, after, rfl, -⟩ := List.lookup_eq_some_iff.mp hvalue
  obtain ⟨⟨used, value'⟩, hmem, hfield⟩ :=
    Fallible.exists_mem_of_forall₂ hfields (List.mem_append_right before List.mem_cons_self)
  exact ⟨used, value', Key.find?_eq_some hkey hdistinct (hperm.mem_iff.mp hmem) (hfield.eq_or_eq hkey), hfield⟩

/-- A field whose key has one spelling is looked up under it. -/
theorem exists_lookup (h : Stored fields reordered) {name : String} (hkey : Key.plain name ∈ Key.stored)
    (hvalue : fields.lookup name = some value) :
    ∃ value', reordered.lookup name = some value' ∧
      RespelledField (IsCrossing fields) (name, value) (name, value') := by
  obtain ⟨used, value', hfind, hfield⟩ := h.exists_find? hkey hvalue
  unfold Key.find? Key.plain at hfind
  split at hfind
  case h_1 hlookup =>
    cases hfind
    exact ⟨value', hlookup, hfield⟩
  case h_2 hnone =>
    dsimp only at hnone hfind
    rw [hnone] at hfind
    cases hfind

/-- A field is read as what its reader makes of every spelling. -/
theorem read_eq (h : Stored fields reordered) (hkey : key ∈ Key.stored)
    (hvalue : fields.lookup key.camel = some value)
    (hreader : ∀ g, RespelledField (IsCrossing fields) (key.camel, value) g → reader g.2 = .ok a) :
    key.read default reader reordered = .ok a := by
  obtain ⟨used, value', hfind, hfield⟩ := h.exists_find? hkey hvalue
  unfold Key.read
  rw [hfind]
  dsimp only
  rw [hreader _ hfield, Checked.under_ok]

/-- A field that has to be there is read as what its reader makes of every spelling. -/
theorem require_eq (h : Stored fields reordered) (hkey : key ∈ Key.stored)
    (hvalue : fields.lookup key.camel = some value)
    (hreader : ∀ g, RespelledField (IsCrossing fields) (key.camel, value) g → reader g.2 = .ok a) :
    key.require reader reordered = .ok a := by
  obtain ⟨used, value', hfind, hfield⟩ := h.exists_find? hkey hvalue
  unfold Key.require
  rw [hfind]
  dsimp only
  rw [hreader _ hfield, Checked.under_ok]

end Stored

/-- What a reader makes of a value with one spelling it makes of the field in every spelling. -/
theorem reader_of_fixed {α : Type} {crossing : Prop} {name : String} {value : Json} {reader : Json → Checked α}
    {a : α} (hfixed : value.Fixed) (hname : crossing → name ≠ "operator") (hreader : reader value = .ok a) :
    ∀ g, RespelledField crossing (name, value) g → reader g.2 = .ok a := by
  intro g hg
  rw [hg.value_eq hfixed hname, hreader]

end TradingRules
