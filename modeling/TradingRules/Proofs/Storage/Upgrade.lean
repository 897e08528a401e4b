import TradingRules.Condition.Legacy
import TradingRules.Proofs.Fallible
import TradingRules.Rule.Storage

/-!
# `Proofs.Storage.Upgrade` — which documents an upgrade takes

An upgrade goes through the groups of a document from the root down and stops at the first object that it can make
nothing of. What it makes of a document does not depend on where the document stands: it is upgraded, it is
reported as no condition, or its parts have types that the upgrade does not expect, and then the fault has no
message.

## Contents
* `Legacy.upgradeFields_eq` — the children of a group are upgraded where they stand;
* `Legacy.IsGroup`, `IsLeaf`, `HasStructuredTag` — what an object is;
* `Legacy.Upgradable`, `exists_upgradeAt_iff` — the documents that are upgraded;
* `Legacy.Mistyped`, `failsWith_upgradeAt_iff` — the documents that stop an upgrade by the types of their parts.
-/

namespace TradingRules

open Fallible

/-- **What holds of every object whose conditions have it, and of all that is no object, holds of every document.** -/
@[elab_as_elim]
theorem Json.conditionsInduction {motive : Json → Prop} (document : Json)
    (other : ∀ value, (∀ fields, value ≠ .obj fields) → motive value)
    (object : ∀ fields, (∀ items, fields.lookup "conditions" = some (.arr items) → ∀ item ∈ items, motive item) →
      motive (.obj fields)) : motive document := by
  induction hsize : sizeOf document using Nat.strongRecOn generalizing document with
  | ind size ih =>
      cases document with
      | obj fields =>
          refine object fields fun items hitems item hitem => ih _ ?_ item rfl
          obtain ⟨before, after, rfl, -⟩ := List.lookup_eq_some_iff.mp hitems
          have hfield : sizeOf ("conditions", arr items) < sizeOf (before ++ ("conditions", arr items) :: after) :=
            List.sizeOf_lt_of_mem (List.mem_append_right before List.mem_cons_self)
          have hlisted : sizeOf item < sizeOf items := List.sizeOf_lt_of_mem hitem
          simp only [Prod.mk.sizeOf_spec, arr.sizeOf_spec, obj.sizeOf_spec] at hfield hsize
          omega
      | null | bool | int | float | str | arr => exact other _ nofun

/-- A tag that is known is that of its kind. -/
theorem LeafKind.name_of_ofName? {name : String} {kind : LeafKind} (h : LeafKind.ofName? name = some kind) :
    name = kind.name := by
  unfold LeafKind.ofName? at h
  split at h <;> cases h <;> rfl

namespace Legacy

variable {path : List Nat} {fields : List (String × Json)} {value : Json}

/-- **The children of a group are upgraded where they stand**, and nothing else is. -/
theorem upgradeFields_eq (h : fields.lookup "conditions" = some value) :
    upgradeFields path fields =
      (upgradeChildren path value).map fun items => Assoc.insert fields "conditions" (.arr items) := by
  induction fields with
  | nil => cases h
  | cons field fields ih =>
      obtain ⟨key, other⟩ := field
      rw [upgradeFields]
      by_cases hkey : key = "conditions"
      · subst hkey
        rw [List.lookup_cons_self, Option.some.injEq] at h
        simp only [if_pos, h, Assoc.insert]
      · rw [Assoc.lookup_cons_of_ne hkey] at h
        rw [if_neg hkey, ih h]
        cases upgradeChildren path value with
        | error fault => rfl
        | ok items =>
            simp only [Except.map, Assoc.insert, if_neg hkey]

/-- A group without children keeps its fields. -/
theorem upgradeFields_of_lookup_eq_none (h : fields.lookup "conditions" = none) :
    upgradeFields path fields = .ok fields := by
  induction fields with
  | nil => rw [upgradeFields]
  | cons field fields ih =>
      obtain ⟨key, other⟩ := field
      have hkey : key ≠ "conditions" := by
        rintro rfl
        rw [List.lookup_cons_self] at h
        cases h
      rw [Assoc.lookup_cons_of_ne hkey] at h
      rw [upgradeFields, if_neg hkey, ih h]
      rfl

/-! ## Objects -/

/-- An object is a group: by its tag, or without one by its combinator and its children. -/
def IsGroup (fields : List (String × Json)) : Prop :=
  fields.lookup "type" = some (.str groupTag) ∨
    (fields.lookup "type" = none ∨ fields.lookup "type" = some .null) ∧
      fields.lookup "logic" ≠ none ∧ fields.lookup "conditions" ≠ none

/-- An object is a leaf by its tag. -/
def IsLeaf (fields : List (String × Json)) : Prop :=
  ∃ kind : LeafKind, fields.lookup "type" = some (.str kind.name)

/-- The tag of an object is a list or an object itself. -/
def HasStructuredTag (fields : List (String × Json)) : Prop :=
  (∃ items, fields.lookup "type" = some (.arr items)) ∨ ∃ inner, fields.lookup "type" = some (.obj inner)

/-- The fault is one of the types in a document, which has no message. -/
def Fault.IsTyping : Fault → Prop
  | .structuredTag | .childrenNotAList => True
  | .notAnObject _ | .untagged _ | .unknownTag _ _ => False

theorem classify_of_isGroup (h : IsGroup fields) : classify path fields = .group := by
  unfold classify
  rcases h with htag | ⟨htag, hlogic, hconditions⟩
  · rw [htag]
    rfl
  · have hboth : (fields.lookup "logic").isSome && (fields.lookup "conditions").isSome := by
      simp [Option.isSome_iff_ne_none, hlogic, hconditions]
    have hnull : (fields.lookup "type").getD .null = .null := by
      rcases htag with htag | htag <;> rw [htag] <;> rfl
    rw [hnull]
    exact if_pos hboth

theorem classify_of_isLeaf (h : IsLeaf fields) : classify path fields = .leaf := by
  obtain ⟨kind, htag⟩ := h
  unfold classify
  rw [htag]
  cases kind <;> rfl

theorem classify_of_hasStructuredTag (h : HasStructuredTag fields) :
    classify path fields = .fault .structuredTag := by
  unfold classify
  rcases h with ⟨items, htag⟩ | ⟨inner, htag⟩ <;> rw [htag] <;> rfl

/-- Of an object without a tag it is known that it is a group, or that it cannot be classified. -/
theorem isGroup_or_of_untagged (path : List Nat)
    (htag : fields.lookup "type" = none ∨ fields.lookup "type" = some .null) :
    IsGroup fields ∨ classify path fields = .fault (.untagged path) := by
  by_cases hboth : fields.lookup "logic" ≠ none ∧ fields.lookup "conditions" ≠ none
  · exact .inl (.inr ⟨htag, hboth⟩)
  · have hnull : (fields.lookup "type").getD .null = .null := by
      rcases htag with htag | htag <;> rw [htag] <;> rfl
    right
    unfold classify
    rw [hnull]
    refine if_neg ?_
    rwa [Bool.and_eq_true, Option.isSome_iff_ne_none, Option.isSome_iff_ne_none]

/-- Of an object with a name for its tag it is known what it is, or the name is not. -/
theorem isGroup_or_of_named (path : List Nat) {name : String} (htag : fields.lookup "type" = some (.str name)) :
    IsGroup fields ∨ IsLeaf fields ∨ classify path fields = .fault (.unknownTag (.str name) path) := by
  by_cases hgroup : name = groupTag
  · subst hgroup
    exact .inl (.inl htag)
  · cases hkind : LeafKind.ofName? name with
    | some kind =>
        rw [LeafKind.name_of_ofName? hkind] at htag
        exact .inr (.inl ⟨kind, htag⟩)
    | none =>
        right; right
        unfold classify
        rw [htag]
        show (if name = groupTag then _ else if (LeafKind.ofName? name).isSome then _ else _) = _
        rw [if_neg hgroup, hkind]
        rfl

/-- **An object is a group, a leaf or neither**, and then there is a message about its tag unless that is a list or
an object. -/
theorem class_cases (path : List Nat) (fields : List (String × Json)) :
    IsGroup fields ∨ IsLeaf fields ∨ HasStructuredTag fields ∨
      ∃ fault, classify path fields = .fault fault ∧ ¬fault.IsTyping := by
  cases htag : fields.lookup "type" with
  | none =>
      rcases isGroup_or_of_untagged path (.inl htag) with h | h
      · exact .inl h
      · exact .inr (.inr (.inr ⟨_, h, id⟩))
  | some tag =>
      cases tag with
      | null =>
          rcases isGroup_or_of_untagged path (.inr htag) with h | h
          · exact .inl h
          · exact .inr (.inr (.inr ⟨_, h, id⟩))
      | str name =>
          rcases isGroup_or_of_named path htag with h | h | h
          · exact .inl h
          · exact .inr (.inl h)
          · exact .inr (.inr (.inr ⟨_, h, id⟩))
      | arr items => exact .inr (.inr (.inl (.inl ⟨items, htag⟩)))
      | obj inner => exact .inr (.inr (.inl (.inr ⟨inner, htag⟩)))
      | bool | int | float =>
          have hclass : ∃ tag, classify path fields = .fault (.unknownTag tag path) := by
            unfold classify
            rw [htag]
            exact ⟨_, rfl⟩
          obtain ⟨tag, h⟩ := hclass
          exact .inr (.inr (.inr ⟨_, h, id⟩))

/-! ## Documents -/

/-- A document is upgraded: it is a leaf, or a group whose children are not given or are a list of such documents. -/
inductive Upgradable : Json → Prop
  | leaf {fields : List (String × Json)} : IsLeaf fields → Upgradable (.obj fields)
  | bare {fields : List (String × Json)} : IsGroup fields → fields.lookup "conditions" = none →
      Upgradable (.obj fields)
  | unset {fields : List (String × Json)} {value : Json} : IsGroup fields →
      fields.lookup "conditions" = some value → value.isUnset = true → Upgradable (.obj fields)
  | group {fields : List (String × Json)} {items : List Json} : IsGroup fields →
      fields.lookup "conditions" = some (.arr items) → (∀ item ∈ items, Upgradable item) → Upgradable (.obj fields)

/-- A document stops an upgrade by the types of its parts. Its tag is a list or an object, or its children are given
and have no parts; or this is so of one of its children, and all before that one are upgraded. -/
inductive Mistyped : Json → Prop
  | tag {fields : List (String × Json)} : HasStructuredTag fields → Mistyped (.obj fields)
  | children {fields : List (String × Json)} {value : Json} : IsGroup fields →
      fields.lookup "conditions" = some value → value.isUnset = false → parts? value = none → Mistyped (.obj fields)
  | child {fields : List (String × Json)} {before after : List Json} {item : Json} : IsGroup fields →
      fields.lookup "conditions" = some (.arr (before ++ item :: after)) → (∀ other ∈ before, Upgradable other) →
      Mistyped item → Mistyped (.obj fields)

theorem upgradeAt_of_isGroup (path : List Nat) (h : IsGroup fields) :
    upgradeAt path (.obj fields) = (upgradeFields path fields).map fun fields => .obj (tagGroup fields) := by
  rw [upgradeAt, classify_of_isGroup h]

theorem upgradeAt_of_isLeaf (path : List Nat) (h : IsLeaf fields) :
    upgradeAt path (.obj fields) = .ok (.obj fields) := by
  rw [upgradeAt, classify_of_isLeaf h]

theorem upgradeAt_of_fault {fault : Fault} (h : classify path fields = .fault fault) :
    upgradeAt path (.obj fields) = .error fault := by
  rw [upgradeAt, h]

theorem upgradeAt_of_forall_ne (path : List Nat) (h : ∀ fields, value ≠ .obj fields) :
    upgradeAt path value = .error (.notAnObject path) := by
  cases value with
  | obj fields => exact absurd rfl (h fields)
  | null | bool | int | float | str | arr => rw [upgradeAt]; exact nofun

/-- Children that are not given are none. -/
theorem upgradeChildren_of_isUnset (path : List Nat) (h : value.isUnset = true) : upgradeChildren path value = .ok [] := by
  cases value with
  | arr items =>
      rw [List.isEmpty_iff.mp h, upgradeChildren, upgradeItems]
  | str | obj => exact if_pos h
  | null | bool | int | float =>
      rw [upgradeChildren, if_pos h] <;> exact nofun

/-- Children that are given have parts, or their type is the fault. -/
theorem upgradeChildren_of_parts_eq_none (path : List Nat) (hgiven : value.isUnset = false)
    (hparts : parts? value = none) : upgradeChildren path value = .error .childrenNotAList := by
  cases value with
  | arr | str | obj => cases hparts
  | null => cases hgiven
  | bool | int | float =>
      rw [upgradeChildren, if_neg (Bool.eq_false_iff.mp hgiven)] <;> exact nofun

/-- Children are a list, or not given, or have no parts, or the first of their parts is no object. -/
theorem children_cases (path : List Nat) (value : Json) :
    (∃ items, value = .arr items) ∨ value.isUnset = true ∨ value.isUnset = false ∧ parts? value = none ∨
      upgradeChildren path value = .error (.notAnObject (path ++ [0])) := by
  cases hunset : value.isUnset with
  | true => exact .inr (.inl rfl)
  | false =>
      have hgiven := Bool.eq_false_iff.mp hunset
      cases value with
      | arr items => exact .inl ⟨items, rfl⟩
      | str | obj => exact .inr (.inr (.inr (if_neg hgiven)))
      | null | bool | int | float => exact .inr (.inr (.inl ⟨rfl, rfl⟩))

section Items

variable {P : Fault → Prop} {items : List Json}

/-- Items are upgraded together if each is. -/
theorem exists_upgradeItems (h : ∀ item ∈ items, ∀ path, ∃ upgraded, upgradeAt path item = .ok upgraded)
    (path : List Nat) (i : Nat) : ∃ upgraded, upgradeItems path i items = .ok upgraded := by
  induction items generalizing i with
  | nil => exact ⟨[], by rw [upgradeItems]⟩
  | cons item items ih =>
      obtain ⟨hitem, hitems⟩ := List.forall_mem_cons.mp h
      obtain ⟨first, hfirst⟩ := hitem (path ++ [i])
      obtain ⟨rest, hrest⟩ := ih hitems (i + 1)
      refine ⟨first :: rest, ?_⟩
      rw [upgradeItems, hfirst, hrest]
      rfl

/-- Each of several upgraded items is upgraded at its place. -/
theorem exists_upgradeAt_of_items {i : Nat} {upgraded : List Json} (h : upgradeItems path i items = .ok upgraded) :
    ∀ item ∈ items, ∃ place one, upgradeAt place item = .ok one := by
  induction items generalizing i upgraded with
  | nil => exact nofun
  | cons item items ih =>
      rw [upgradeItems] at h
      obtain ⟨first, hfirst, h⟩ := bind_eq_ok.mp h
      obtain ⟨rest, hrest, -⟩ := bind_eq_ok.mp h
      exact List.forall_mem_cons.mpr ⟨⟨_, first, hfirst⟩, ih hrest⟩

/-- An upgrade of several items fails at one of them, and those before it are upgraded. -/
theorem stopsAt_of_upgradeItems {i : Nat} (h : FailsWith P (upgradeItems path i items)) :
    StopsAt (fun item => ∃ place one, upgradeAt place item = .ok one)
      (fun item => ∃ place, FailsWith P (upgradeAt place item)) items := by
  induction items generalizing i with
  | nil =>
      rw [upgradeItems] at h
      exact absurd h (not_failsWith_ok [])
  | cons item items ih =>
      rw [upgradeItems, failsWith_bind] at h
      rcases h with h | ⟨first, hfirst, h⟩
      · exact stopsAt_cons.mpr (.inl ⟨_, h⟩)
      · exact stopsAt_cons.mpr (.inr ⟨⟨_, first, hfirst⟩, ih (failsWith_map.mp h)⟩)

/-- An upgrade of several items fails if it fails at one of them and those before it are upgraded. -/
theorem failsWith_upgradeItems {before after : List Json} {item : Json}
    (hbefore : ∀ other ∈ before, ∀ path, ∃ one, upgradeAt path other = .ok one)
    (hitem : ∀ path, FailsWith P (upgradeAt path item)) (path : List Nat) (i : Nat) :
    FailsWith P (upgradeItems path i (before ++ item :: after)) := by
  induction before generalizing i with
  | nil =>
      rw [List.nil_append, upgradeItems, failsWith_bind]
      exact .inl (hitem _)
  | cons other before ih =>
      obtain ⟨hother, hrest⟩ := List.forall_mem_cons.mp hbefore
      obtain ⟨first, hfirst⟩ := hother (path ++ [i])
      rw [List.cons_append, upgradeItems, failsWith_bind]
      exact .inr ⟨first, hfirst, failsWith_map.mpr (ih hrest (i + 1))⟩

end Items

/-- **What an upgrade makes of an object.** It goes on to the children of a group that has a list of them; and where
it does not, the object is upgraded, or stops the upgrade by its types, or is reported. -/
theorem upgradeAt_cases (path : List Nat) (fields : List (String × Json)) :
    (∃ items, IsGroup fields ∧ fields.lookup "conditions" = some (.arr items) ∧
      upgradeAt path (.obj fields) = (upgradeItems path 0 items).map fun upgraded =>
        .obj (tagGroup (Assoc.insert fields "conditions" (.arr upgraded)))) ∨
    Upgradable (.obj fields) ∧ (∃ upgraded, upgradeAt path (.obj fields) = .ok upgraded) ∨
    Mistyped (.obj fields) ∧ FailsWith Fault.IsTyping (upgradeAt path (.obj fields)) ∨
    ∃ fault, upgradeAt path (.obj fields) = .error fault ∧ ¬fault.IsTyping := by
  rcases class_cases path fields with hgroup | hleaf | htag | ⟨fault, hclass, hreported⟩
  · have hfields := upgradeAt_of_isGroup path hgroup
    cases hlookup : fields.lookup "conditions" with
    | none =>
        rw [upgradeFields_of_lookup_eq_none hlookup] at hfields
        exact .inr (.inl ⟨.bare hgroup hlookup, _, hfields⟩)
    | some value =>
        rw [upgradeFields_eq hlookup] at hfields
        rcases children_cases path value with ⟨items, rfl⟩ | hunset | ⟨hgiven, hparts⟩ | hfault
        · refine .inl ⟨items, hgroup, rfl, ?_⟩
          rw [hfields, upgradeChildren]
          cases upgradeItems path 0 items <;> rfl
        · rw [upgradeChildren_of_isUnset path hunset] at hfields
          exact .inr (.inl ⟨.unset hgroup hlookup hunset, _, hfields⟩)
        · rw [upgradeChildren_of_parts_eq_none path hgiven hparts] at hfields
          exact .inr (.inr (.inl ⟨.children hgroup hlookup hgiven hparts, _, hfields, trivial⟩))
        · rw [hfault] at hfields
          exact .inr (.inr (.inr ⟨_, hfields, id⟩))
  · exact .inr (.inl ⟨.leaf hleaf, _, upgradeAt_of_isLeaf path hleaf⟩)
  · have hfault : upgradeAt path (.obj fields) = .error .structuredTag :=
      upgradeAt_of_fault (classify_of_hasStructuredTag htag)
    exact .inr (.inr (.inl ⟨.tag htag, _, hfault, trivial⟩))
  · exact .inr (.inr (.inr ⟨fault, upgradeAt_of_fault hclass, hreported⟩))

/-- **A document is upgraded exactly if it is upgradable**, wherever it stands. -/
theorem exists_upgradeAt_iff (path : List Nat) (document : Json) :
    (∃ upgraded, upgradeAt path document = .ok upgraded) ↔ Upgradable document := by
  constructor
  · rintro ⟨upgraded, h⟩
    induction document using Json.conditionsInduction generalizing path upgraded with
    | other value hvalue =>
        rw [upgradeAt_of_forall_ne path hvalue] at h
        cases h
    | object fields ih =>
        rcases upgradeAt_cases path fields with ⟨items, hgroup, hlookup, hitems⟩ | ⟨hupgradable, -⟩ |
          ⟨-, fault, hfault, -⟩ | ⟨fault, hfault, -⟩
        · rw [hitems] at h
          obtain ⟨all, hall, -⟩ := map_eq_ok.mp h
          refine .group hgroup hlookup fun item hitem => ?_
          obtain ⟨place, one, hone⟩ := exists_upgradeAt_of_items hall item hitem
          exact ih items hlookup item hitem place one hone
        · exact hupgradable
        · rw [hfault] at h
          cases h
        · rw [hfault] at h
          cases h
  · intro h
    induction h generalizing path with
    | leaf hleaf => exact ⟨_, upgradeAt_of_isLeaf path hleaf⟩
    | bare hgroup hlookup =>
        rw [upgradeAt_of_isGroup path hgroup, upgradeFields_of_lookup_eq_none hlookup]
        exact ⟨_, rfl⟩
    | unset hgroup hlookup hunset =>
        rw [upgradeAt_of_isGroup path hgroup, upgradeFields_eq hlookup, upgradeChildren_of_isUnset path hunset]
        exact ⟨_, rfl⟩
    | group hgroup hlookup _ ih =>
        obtain ⟨upgraded, hitems⟩ := exists_upgradeItems (fun item hitem path => ih item hitem path) path 0
        rw [upgradeAt_of_isGroup path hgroup, upgradeFields_eq hlookup, upgradeChildren, hitems]
        exact ⟨_, rfl⟩

/-- **A document stops an upgrade by the types of its parts exactly if it is mistyped**, wherever it stands. -/
theorem failsWith_upgradeAt_iff (path : List Nat) (document : Json) :
    FailsWith Fault.IsTyping (upgradeAt path document) ↔ Mistyped document := by
  constructor
  · intro h
    induction document using Json.conditionsInduction generalizing path with
    | other value hvalue =>
        rw [upgradeAt_of_forall_ne path hvalue, failsWith_error] at h
        exact h.elim
    | object fields ih =>
        rcases upgradeAt_cases path fields with ⟨items, hgroup, hlookup, hitems⟩ | ⟨-, upgraded, hupgraded⟩ |
          ⟨hmistyped, -⟩ | ⟨fault, hfault, hreported⟩
        · rw [hitems, failsWith_map] at h
          obtain ⟨before, item, after, rfl, hbefore, place, hitem⟩ := stopsAt_of_upgradeItems h
          refine .child hgroup hlookup (fun other hother => ?_)
            (ih _ hlookup item (List.mem_append_right before List.mem_cons_self) place hitem)
          obtain ⟨place, hone⟩ := hbefore other hother
          exact (exists_upgradeAt_iff place other).mp hone
        · rw [hupgraded] at h
          exact absurd h (not_failsWith_ok upgraded)
        · exact hmistyped
        · rw [hfault, failsWith_error] at h
          exact absurd h hreported
  · intro h
    induction h generalizing path with
    | tag htag =>
        rw [upgradeAt_of_fault (classify_of_hasStructuredTag htag), failsWith_error]
        trivial
    | children hgroup hlookup hgiven hparts =>
        rw [upgradeAt_of_isGroup path hgroup, upgradeFields_eq hlookup,
          upgradeChildren_of_parts_eq_none path hgiven hparts, failsWith_map, failsWith_map, failsWith_error]
        trivial
    | child hgroup hlookup hbefore _ ih =>
        rw [upgradeAt_of_isGroup path hgroup, upgradeFields_eq hlookup, upgradeChildren, failsWith_map, failsWith_map]
        exact failsWith_upgradeItems (fun other hother place => (exists_upgradeAt_iff place other).mpr (hbefore other hother))
          ih path 0

end Legacy

end TradingRules
