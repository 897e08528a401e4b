import TradingRules.Proofs.Storage.Conditions
import TradingRules.Proofs.Storage.Offsets

/-!
# `Proofs.Storage.Tagged` — what an upgrade makes of a document

An upgrade gives every group its tag and a list of children and leaves everything else as it is: leaves, and the
other fields of groups. So a second upgrade finds nothing to do, and a document that can be read as it stands is read
as the same tree after an upgrade. The two differ at the root only. Without an upgrade a root is taken for a group
even if it has nothing but its combinator or its children; an upgrade takes no object for a group that lacks its tag
and one of them.

## Contents
* `Legacy.listed`, `Legacy.Tagged` — the children of a group, and its fields after an upgrade;
* `Legacy.upgradeAt_eq_ok` — an upgraded object, `Legacy.upgradeAt_upgraded` — upgraded again;
* `Condition.exists_upgraded` — a condition is read from its upgraded document;
* `Legacy.Leads`, `Legacy.Settled` — the conditions in a document, and what was given for them;
* `Group.upgrade_conservative`.
-/

namespace TradingRules

open Fallible

namespace Legacy

variable {path place : List Nat} {fields given : List (String × Json)} {items : List Json} {document upgraded : Json}

/-! ## Groups -/

/-- The children that an object lists. -/
def listed (fields : List (String × Json)) : List Json :=
  match fields.lookup "conditions" with
  | some (.arr items) => items
  | _ => []

theorem listed_of_lookup (h : fields.lookup "conditions" = some (.arr items)) : listed fields = items := by
  unfold listed
  rw [h]

/-- A child is listed under the key of the children. -/
theorem lookup_of_mem_listed {item : Json} (h : item ∈ listed fields) :
    fields.lookup "conditions" = some (.arr (listed fields)) := by
  unfold listed at h ⊢
  split
  next items hitems => rw [hitems]
  next hother =>
    split at h
    next items hitems => exact absurd hitems (hother items)
    next => exact absurd h List.not_mem_nil

/-- The fields of a group that has its tag and a list of children, and whose other fields are as they were given. -/
structure Tagged (given : List (String × Json)) (items : List Json) (fields : List (String × Json)) : Prop where
  tag : fields.lookup "type" = some (.str groupTag)
  children : fields.lookup "conditions" = some (.arr items)
  other : ∀ key, key ≠ "type" → key ≠ "conditions" → fields.lookup key = given.lookup key

/-- No object is a group and a leaf. -/
theorem not_isLeaf_of_isGroup (h : IsGroup fields) : ¬IsLeaf fields := by
  rintro ⟨kind, htag⟩
  have hname : kind.name ≠ groupTag := by
    cases kind <;> decide
  rcases h with hgroup | ⟨hnone | hnull, -⟩
  · rw [htag, Option.some.injEq, Json.str.injEq] at hgroup
    exact hname hgroup
  · rw [htag] at hnone
    cases hnone
  · rw [htag] at hnull
    cases hnull

/-- A group that says nothing about children is one by its tag. -/
theorem lookup_type_of_isGroup (h : IsGroup fields) (hnone : fields.lookup "conditions" = none) :
    fields.lookup "type" = some (.str groupTag) :=
  h.resolve_right fun huntagged => huntagged.2.2 hnone

/-- A group is a group with other children, too. -/
theorem isGroup_insert (h : IsGroup fields) (value : Json) : IsGroup (Assoc.insert fields "conditions" value) := by
  have htype : (Assoc.insert fields "conditions" value).lookup "type" = fields.lookup "type" :=
    Assoc.lookup_insert_of_ne (by decide)
  have hlogic : (Assoc.insert fields "conditions" value).lookup "logic" = fields.lookup "logic" :=
    Assoc.lookup_insert_of_ne (by decide)
  unfold IsGroup
  rw [htype, hlogic, Assoc.lookup_insert_self]
  exact h.imp_right fun huntagged => ⟨huntagged.1, huntagged.2.1, nofun⟩

/-- A group that is given a list of children gets its tag and keeps its other fields. -/
theorem tagged_tagGroup (h : IsGroup given) (items : List Json) :
    Tagged given items (tagGroup (Assoc.insert given "conditions" (.arr items))) := by
  have hgroup := isGroup_insert h (.arr items)
  have hchildren : (Assoc.insert given "conditions" (.arr items)).lookup "conditions" = some (.arr items) :=
    Assoc.lookup_insert_self ..
  have hother : ∀ key, key ≠ "conditions" →
      (Assoc.insert given "conditions" (.arr items)).lookup key = given.lookup key :=
    fun key hkey => Assoc.lookup_insert_of_ne hkey
  generalize Assoc.insert given "conditions" (.arr items) = fields at hgroup hchildren hother
  rcases hgroup with htag | ⟨huntagged, -⟩
  · rw [tagGroup_eq htag hchildren]
    exact ⟨htag, hchildren, fun key _ hkey => hother key hkey⟩
  · have hnull : (fields.lookup "type").getD .null = .null := by
      rcases huntagged with htag | htag <;> rw [htag] <;> rfl
    have htagged : tagGroup fields = Assoc.insert fields "type" (.str groupTag) := by
      unfold tagGroup
      rw [hchildren, if_pos hnull]
      exact if_pos rfl
    rw [htagged]
    refine ⟨Assoc.lookup_insert_self .., ?_, ?_⟩
    · rw [Assoc.lookup_insert_of_ne (by decide), hchildren]
    · intro key htype hkey
      rw [Assoc.lookup_insert_of_ne htype, hother key hkey]

/-! ## Upgraded objects -/

/-- A group is upgraded with its children, or with none where nothing is given for them. -/
theorem upgradeAt_group (path : List Nat) (h : IsGroup fields) :
    upgradeAt path (.obj fields) =
      (upgradeChildren path ((fields.lookup "conditions").getD .null)).map fun items =>
        .obj (tagGroup (Assoc.insert fields "conditions" (.arr items))) := by
  rw [upgradeAt_of_isGroup path h]
  cases hlookup : fields.lookup "conditions" with
  | none =>
      have htag := lookup_type_of_isGroup h hlookup
      -- the group has its tag, so its children are all that is put in
      have hempty : tagGroup (Assoc.insert fields "conditions" (.arr [])) =
          Assoc.insert fields "conditions" (.arr []) :=
        tagGroup_eq (by rw [Assoc.lookup_insert_of_ne (by decide), htag]) (Assoc.lookup_insert_self ..)
      have hinserted : tagGroup fields = tagGroup (Assoc.insert fields "conditions" (.arr [])) := by
        rw [hempty]
        unfold tagGroup
        rw [htag, hlookup]
        rfl
      rw [upgradeFields_of_lookup_eq_none hlookup, Option.getD_none, upgradeChildren_of_isUnset path rfl]
      show Except.ok (Json.obj (tagGroup fields)) = _
      rw [hinserted]
      rfl
  | some value =>
      rw [upgradeFields_eq hlookup, Option.getD_some]
      cases upgradeChildren path value <;> rfl

/-- Upgraded children are those that are listed, upgraded one after the other. -/
theorem upgradeItems_listed (h : upgradeChildren path ((fields.lookup "conditions").getD .null) = .ok items) :
    upgradeItems path 0 (listed fields) = .ok items := by
  have hempty : ∀ value, (∀ items, value ≠ .arr items) → upgradeChildren path value = .ok items → items = [] := by
    intro value hvalue hok
    rcases children_cases path value with ⟨items, rfl⟩ | hunset | ⟨hgiven, hparts⟩ | hfault
    · exact absurd rfl (hvalue items)
    · rw [upgradeChildren_of_isUnset path hunset] at hok
      cases hok
      rfl
    · rw [upgradeChildren_of_parts_eq_none path hgiven hparts] at hok
      cases hok
    · rw [hfault] at hok
      cases hok
  unfold listed
  split
  next given hgiven =>
    rw [hgiven, Option.getD_some, upgradeChildren] at h
    exact h
  next hother =>
    have hnone : items = [] := by
      refine hempty _ ?_ h
      intro items hitems
      cases hlookup : fields.lookup "conditions" with
      | none =>
          rw [hlookup] at hitems
          cases hitems
      | some value =>
          rw [hlookup, Option.getD_some] at hitems
          exact hother items (hlookup.trans (congrArg some hitems))
    rw [hnone, upgradeItems]

/-- **An upgraded object** is a leaf as it was given, or a group with its tag and its children upgraded. -/
theorem upgradeAt_eq_ok (h : upgradeAt path (.obj given) = .ok upgraded) :
    IsLeaf given ∧ upgraded = .obj given ∨
      IsGroup given ∧ ∃ items fields, upgraded = .obj fields ∧ Tagged given items fields ∧
        upgradeItems path 0 (listed given) = .ok items := by
  rcases class_cases path given with hgroup | hleaf | htag | ⟨fault, hfault, -⟩
  · rw [upgradeAt_group path hgroup] at h
    obtain ⟨items, hitems, rfl⟩ := map_eq_ok.mp h
    exact .inr ⟨hgroup, items, _, rfl, tagged_tagGroup hgroup items, upgradeItems_listed hitems⟩
  · rw [upgradeAt_of_isLeaf path hleaf] at h
    cases h
    exact .inl ⟨hleaf, rfl⟩
  · rw [upgradeAt_of_fault (classify_of_hasStructuredTag htag)] at h
    cases h
  · rw [upgradeAt_of_fault hfault] at h
    cases h

/-- A group is upgraded if it has a list of children that are, or no children at all. -/
theorem exists_tagged (hgroup : IsGroup given)
    (hchildren : given.lookup "conditions" = none ∨ given.lookup "conditions" = some (.arr (listed given)))
    (hitems : upgradeItems path 0 (listed given) = .ok items) :
    ∃ fields, upgradeAt path (.obj given) = .ok (.obj fields) ∧ Tagged given items fields := by
  refine ⟨_, ?_, tagged_tagGroup hgroup items⟩
  have hvalue : upgradeChildren path ((given.lookup "conditions").getD .null) = .ok items := by
    rcases hchildren with hnone | hlisted
    · have hempty : listed given = [] := by
        unfold listed
        rw [hnone]
      rw [hempty, upgradeItems] at hitems
      rw [hnone, ← hitems]
      exact upgradeChildren_of_isUnset path rfl
    · rw [hlisted, Option.getD_some, upgradeChildren, hitems]
  rw [upgradeAt_group path hgroup, hvalue]
  rfl

/-- Items are upgraded one by one, each at its place. -/
theorem forall₂_upgradeItems {i : Nat} {all : List Json} (h : upgradeItems path i items = .ok all) :
    List.Forall₂ (fun item one => ∃ place, upgradeAt place item = .ok one) items all := by
  induction items generalizing i all with
  | nil =>
      rw [upgradeItems] at h
      cases h
      exact .nil
  | cons item items ih =>
      rw [upgradeItems] at h
      obtain ⟨first, hfirst, h⟩ := bind_eq_ok.mp h
      obtain ⟨rest, hrest, h⟩ := bind_eq_ok.mp h
      cases pure_eq_ok.mp h
      exact .cons ⟨_, hfirst⟩ (ih hrest)

/-! ## Upgraded again -/

/-- A group with its tag and with children that an upgrade does not change is not changed itself. -/
theorem Tagged.upgradeAt_eq (h : Tagged given items fields)
    (hitems : ∀ item ∈ items, ∀ place, upgradeAt place item = .ok item) (path : List Nat) :
    upgradeAt path (.obj fields) = .ok (.obj fields) := by
  rw [upgradeAt_of_isGroup path (.inl h.tag),
    upgradeFields_of_lookup h.children (upgradeItems_of_forall hitems 0)]
  show Except.ok (Json.obj (tagGroup fields)) = _
  rw [tagGroup_eq h.tag h.children]

/-- **An upgraded document is not changed by another upgrade**, wherever it stands. -/
theorem upgradeAt_upgraded (h : upgradeAt path document = .ok upgraded) (place : List Nat) :
    upgradeAt place upgraded = .ok upgraded := by
  induction document using Json.conditionsInduction generalizing path upgraded place with
  | other value hvalue =>
      rw [upgradeAt_of_forall_ne path hvalue] at h
      cases h
  | object given ih =>
      rcases upgradeAt_eq_ok h with ⟨hleaf, rfl⟩ | ⟨-, items, fields, rfl, htagged, hitems⟩
      · exact upgradeAt_of_isLeaf place hleaf
      · refine htagged.upgradeAt_eq ?_ place
        intro one hone place
        obtain ⟨item, hitem, _, hupgrade⟩ := exists_mem_of_forall₂ (forall₂_upgradeItems hitems).flip hone
        exact ih _ (lookup_of_mem_listed hitem) item hitem hupgrade place

/-! ## What was given for a condition -/

/-- A place in a document, child by child through groups, leads to what stands there. -/
inductive Leads : Json → List Nat → Json → Prop
  | here (document : Json) : Leads document [] document
  | there {fields : List (String × Json)} {items : List Json} {i : Nat} {item node : Json} {place : List Nat} :
      IsGroup fields → fields.lookup "conditions" = some (.arr items) → items[i]? = some item →
      Leads item place node → Leads (.obj fields) (i :: place) node

/-- What stands in an upgraded document, and what was given for it: a leaf is what it was, and a group has its tag and
a list of children beside the fields that it had. -/
inductive Settled : Json → Json → Prop
  | leaf {fields : List (String × Json)} : IsLeaf fields → Settled (.obj fields) (.obj fields)
  | group {given fields : List (String × Json)} {items : List Json} : IsGroup given → Tagged given items fields →
      Settled (.obj given) (.obj fields)

/-- Nothing but an object is upgraded, and it is settled. -/
theorem settled_of_upgradeAt (h : upgradeAt path document = .ok upgraded) : Settled document upgraded := by
  cases document with
  | obj given =>
      rcases upgradeAt_eq_ok h with ⟨hleaf, rfl⟩ | ⟨hgroup, items, fields, rfl, htagged, -⟩
      · exact .leaf hleaf
      · exact .group hgroup htagged
  | _ =>
      rw [upgradeAt] at h
      · cases h
      · intro _ hkind
        cases hkind

/-- What is a group after an upgrade was one before. -/
theorem exists_isGroup (h : upgradeAt path document = .ok (.obj fields)) (hgroup : IsGroup fields) :
    ∃ given, document = .obj given ∧ IsGroup given := by
  cases settled_of_upgradeAt h with
  | leaf hleaf => exact absurd hleaf (not_isLeaf_of_isGroup hgroup)
  | group hgiven _ => exact ⟨_, rfl, hgiven⟩

/-- The children of a group and of the upgraded group go together. -/
theorem exists_children (h : upgradeAt path (.obj given) = .ok upgraded) (hgroup : IsGroup given) :
    ∃ items fields, upgraded = .obj fields ∧ Tagged given items fields ∧
      List.Forall₂ (fun item one => ∃ place, upgradeAt place item = .ok one) (listed given) items := by
  rcases upgradeAt_eq_ok h with ⟨hleaf, -⟩ | ⟨-, items, fields, rfl, htagged, hitems⟩
  · exact absurd hleaf (not_isLeaf_of_isGroup hgroup)
  · exact ⟨items, fields, rfl, htagged, forall₂_upgradeItems hitems⟩

/-- **What stands at a place in an upgraded document** is upgraded from what stands there in the document that was
given. -/
theorem Leads.exists_given {node : Json} (hleads : Leads upgraded place node)
    (h : upgradeAt path document = .ok upgraded) :
    ∃ given, Leads document place given ∧ ∃ path, upgradeAt path given = .ok node := by
  induction hleads generalizing document path with
  | here => exact ⟨document, .here _, path, h⟩
  | @there fields _ i item node place hgroup hlookup hitem _ ih =>
      obtain ⟨given, rfl, hgiven⟩ := exists_isGroup h hgroup
      obtain ⟨items, _, heq, htagged, hitems⟩ := exists_children h hgiven
      cases heq
      rw [htagged.children, Option.some.injEq, Json.arr.injEq] at hlookup
      subst hlookup
      rcases getElem?_cases_of_forall₂ hitems i with ⟨-, hnone⟩ | ⟨before, _, hbefore, hafter, _, hupgrade⟩
      · rw [hitem] at hnone
        cases hnone
      · rw [hitem, Option.some.injEq] at hafter
        subst hafter
        obtain ⟨found, hthere, hnode⟩ := ih hupgrade
        have hlisted := lookup_of_mem_listed (List.mem_of_getElem? hbefore)
        exact ⟨found, .there hgiven hlisted hbefore hthere, hnode⟩

/-- Whatever stands at a place in a document that is upgraded stands there upgraded. -/
theorem Leads.exists_upgraded {node : Json} (hleads : Leads document place node)
    (h : upgradeAt path document = .ok upgraded) : ∃ one, Leads upgraded place one := by
  induction hleads generalizing upgraded path with
  | here => exact ⟨upgraded, .here _⟩
  | @there given _ i item node place hgroup hlookup hitem _ ih =>
      obtain ⟨items, fields, rfl, htagged, hitems⟩ := exists_children h hgroup
      rw [listed_of_lookup hlookup] at hitems
      rcases getElem?_cases_of_forall₂ hitems i with ⟨hnone, -⟩ | ⟨_, after, hbefore, hafter, _, hupgrade⟩
      · rw [hitem] at hnone
        cases hnone
      · rw [hitem, Option.some.injEq] at hbefore
        subst hbefore
        obtain ⟨one, hone⟩ := ih hupgrade
        exact ⟨one, .there (.inl htagged.tag) htagged.children hafter hone⟩

/-! ## Reading -/

/-- The combinator of a group is read whatever its tag and its children are. -/
theorem Tagged.readLogic (h : Tagged given items fields) : Logic.read fields = Logic.read given := by
  have hcamel : fields.lookup Key.logic.camel = given.lookup Key.logic.camel :=
    h.other _ (by decide) (by decide)
  have hsnake : fields.lookup Key.logic.snake = given.lookup Key.logic.snake :=
    h.other _ (by decide) (by decide)
  have hfind : Key.logic.find? fields = Key.logic.find? given := by
    unfold Key.find?
    rw [hcamel, hsnake]
  unfold Logic.read Key.read
  rw [hfind]

/-- A group is known by its tag. -/
theorem Tagged.tag_eq (h : Tagged given items fields) : Tag.of fields = .group := by
  unfold Tag.of
  rw [h.tag]
  rfl

end Legacy

namespace Tag

variable {fields : List (String × Json)}

/-- What a tag says about the field in which it is stored. -/
def Names (fields : List (String × Json)) : Tag → Prop
  | .missing => fields.lookup "type" = none
  | .group => fields.lookup "type" = some (.str groupTag)
  | .leaf kind => fields.lookup "type" = some (.str kind.name)
  | .unknown => True

theorem names_of (fields : List (String × Json)) : Names fields (of fields) := by
  unfold of
  split
  case h_1 hnone => exact hnone
  case h_2 name htag =>
    split
    case isTrue hname =>
      rw [hname] at htag
      exact htag
    case isFalse =>
      split
      case h_1 kind hkind =>
        rw [LeafKind.name_of_ofName? hkind] at htag
        exact htag
      case h_2 => trivial
  case h_3 => trivial

theorem lookup_of_eq_missing (h : of fields = .missing) : fields.lookup "type" = none := by
  have hnames := names_of fields
  rwa [h] at hnames

theorem isGroup_of_eq (h : of fields = .group) : Legacy.IsGroup fields := by
  have hnames := names_of fields
  rw [h] at hnames
  exact .inl hnames

theorem isLeaf_of_eq {kind : LeafKind} (h : of fields = .leaf kind) : Legacy.IsLeaf fields := by
  have hnames := names_of fields
  rw [h] at hnames
  exact ⟨kind, hnames⟩

end Tag

namespace Condition

variable {fields given : List (String × Json)} {items : List Json} {children : List Condition} {document : Json}
  {c : Condition}

/-- Items that are read together are read one by one. -/
theorem forall₂_ofItems {i : Nat} (h : ofItems i items = .ok children) :
    List.Forall₂ (fun c item => ofJson item = .ok c) children items := by
  induction items generalizing i children with
  | nil =>
      rw [ofItems] at h
      cases h
      exact .nil
  | cons item items ih =>
      rw [ofItems] at h
      obtain ⟨_, rest, hfirst, hrest, rfl⟩ := Checked.seq_eq_ok.mp h
      obtain ⟨c, hc, rfl⟩ := Checked.map_eq_ok.mp hfirst
      exact .cons (Checked.under_eq_ok.mp hc) (ih hrest)

theorem ofFields_of_lookup_eq_none (h : fields.lookup "conditions" = none) : ofFields fields = .ok [] := by
  induction fields with
  | nil => rw [ofFields]
  | cons field fields ih =>
      obtain ⟨key, value⟩ := field
      have hkey : key ≠ "conditions" := by
        rintro rfl
        rw [List.lookup_cons_self] at h
        cases h
      rw [Assoc.lookup_cons_of_ne hkey] at h
      rw [ofFields, if_neg hkey, ih h]

/-- The children of a group are not there, or they are a list and are those that are read from it. -/
theorem ofFields_eq_ok (h : ofFields fields = .ok children) :
    (fields.lookup "conditions" = none ∨ fields.lookup "conditions" = some (.arr (Legacy.listed fields))) ∧
      List.Forall₂ (fun c item => ofJson item = .ok c) children (Legacy.listed fields) := by
  cases hlookup : fields.lookup "conditions" with
  | none =>
      rw [ofFields_of_lookup_eq_none hlookup] at h
      cases h
      refine ⟨.inl rfl, ?_⟩
      unfold Legacy.listed
      rw [hlookup]
      exact .nil
  | some value =>
      rw [ofFields_of_lookup hlookup, Checked.under_eq_ok] at h
      cases value with
      | arr items =>
          rw [ofList] at h
          rw [Legacy.listed_of_lookup hlookup]
          exact ⟨.inr rfl, forall₂_ofItems h⟩
      | _ =>
          rw [ofList] at h
          · cases h
          · intro _ hkind
            cases hkind

/-- Conditions each of which is read from its upgraded document are read together. -/
theorem exists_upgradeItems (h : List.Forall₂ (fun c item => ofJson item = .ok c) children items)
    (hupgrade : ∀ item ∈ items, ∀ c, ofJson item = .ok c → ∀ path, ∃ one,
      Legacy.upgradeAt path item = .ok one ∧ ofJson one = .ok c) (path : List Nat) (i : Nat) :
    ∃ all, Legacy.upgradeItems path i items = .ok all ∧
      List.Forall₂ (fun c item => ofJson item = .ok c) children all := by
  induction h generalizing i with
  | nil => exact ⟨[], by rw [Legacy.upgradeItems], .nil⟩
  | cons hitem _ ih =>
      obtain ⟨hfirst, hrest⟩ := List.forall_mem_cons.mp hupgrade
      obtain ⟨one, hone, hread⟩ := hfirst _ hitem (path ++ [i])
      obtain ⟨all, hall, hreads⟩ := ih hrest (i + 1)
      refine ⟨one :: all, ?_, .cons hread hreads⟩
      rw [Legacy.upgradeItems, hone, hall]
      rfl

/-- The children of a group are read from its upgraded document if each of them is. -/
theorem exists_tagged (hgroup : Legacy.IsGroup given) (hread : ofFields given = .ok children)
    (hupgrade : ∀ items, given.lookup "conditions" = some (.arr items) → ∀ item ∈ items, ∀ c, ofJson item = .ok c →
      ∀ path, ∃ one, Legacy.upgradeAt path item = .ok one ∧ ofJson one = .ok c) (path : List Nat) :
    ∃ items fields, Legacy.upgradeAt path (.obj given) = .ok (.obj fields) ∧ Legacy.Tagged given items fields ∧
      ofFields fields = .ok children := by
  obtain ⟨hchildren, hlisted⟩ := ofFields_eq_ok hread
  obtain ⟨items, hitems, hreads⟩ := exists_upgradeItems hlisted
    (fun item hitem => hupgrade _ (Legacy.lookup_of_mem_listed hitem) item hitem) path 0
  obtain ⟨fields, hfields, htagged⟩ := Legacy.exists_tagged hgroup hchildren hitems
  refine ⟨items, fields, hfields, htagged, ?_⟩
  rw [ofFields_of_lookup htagged.children, ofList, ofItems_of_forall₂ hreads 0, Checked.under_ok]

/-- **A condition that is read from a document is read from the upgraded document**, wherever it stands. -/
theorem exists_upgraded (h : ofJson document = .ok c) (path : List Nat) :
    ∃ upgraded, Legacy.upgradeAt path document = .ok upgraded ∧ ofJson upgraded = .ok c := by
  induction document using Json.conditionsInduction generalizing c path with
  | other value hvalue =>
      cases value with
      | obj fields => exact absurd rfl (hvalue fields)
      | _ =>
          rw [ofJson] at h
          · cases h
          · intro _ hkind
            cases hkind
  | object given ih =>
      have hread := h
      rw [ofJson] at h
      cases htag : Tag.of given with
      | missing | unknown =>
          rw [htag] at h
          cases h
      | leaf kind =>
          exact ⟨_, Legacy.upgradeAt_of_isLeaf path (Tag.isLeaf_of_eq htag), hread⟩
      | group =>
          rw [htag] at h
          obtain ⟨_, children, hlogic, hchildren, rfl⟩ := Checked.seq_eq_ok.mp (Checked.under_eq_ok.mp h)
          obtain ⟨items, fields, hfields, htagged, hreads⟩ := exists_tagged (Tag.isGroup_of_eq htag) hchildren
            (fun items hitems item hitem c hc path => ih items hitems item hitem hc path) path
          refine ⟨_, hfields, ?_⟩
          rw [ofJson, htagged.tag_eq]
          dsimp only
          rw [htagged.readLogic, hlogic, hreads]
          rfl

end Condition

/-! ## Roots -/

namespace Legacy

/-- The root of a document has no tag, nor both a combinator and children by which it is known as a group. -/
def BareRoot (document : Json) : Prop :=
  document.field? "type" = none ∧ (document.field? "logic" = none ∨ document.field? "conditions" = none)

/-- A bare root is no condition to an upgrade. -/
theorem upgrade_of_bareRoot {given : List (String × Json)} (h : BareRoot (.obj given)) :
    upgrade (.obj given) = .error (.untagged []) := by
  obtain ⟨htag, hparts⟩ := h
  refine upgradeAt_of_fault ((isGroup_or_of_untagged [] (.inl htag)).resolve_left ?_)
  rintro (hgroup | ⟨-, hlogic, hconditions⟩)
  · rw [show given.lookup "type" = none from htag] at hgroup
    cases hgroup
  · exact hparts.elim hlogic hconditions

/-- The root of a tree that is read is a group to an upgrade, too, unless it is bare. -/
theorem isGroup_of_checkRootTag {given : List (String × Json)} (h : checkRootTag given = .ok ())
    (hroot : ¬BareRoot (.obj given)) : IsGroup given := by
  unfold checkRootTag at h
  split at h
  case h_1 htag => exact Tag.isGroup_of_eq htag
  case h_2 htag =>
    have hnone := Tag.lookup_of_eq_missing htag
    refine .inr ⟨.inl hnone, ?_, ?_⟩
    · exact fun hlogic => hroot ⟨hnone, .inl hlogic⟩
    · exact fun hconditions => hroot ⟨hnone, .inr hconditions⟩
  case h_3 => cases h

end Legacy

namespace Group

variable {document : Json} {g : Group}

/-- A tree is read from an object, part by part. -/
theorem ofJson_eq_ok (h : Group.ofJson document = .ok g) :
    ∃ given, document = .obj given ∧ checkRootTag given = .ok () ∧ Logic.read given = .ok g.logic ∧
      Condition.ofFields given = .ok g.children := by
  cases document with
  | obj given =>
      rw [Group.ofJson] at h
      obtain ⟨_, children, hlogic, hchildren, rfl⟩ := Checked.seq_eq_ok.mp h
      obtain ⟨_, logic, htag, hread, rfl⟩ := Checked.seq_eq_ok.mp hlogic
      obtain ⟨⟨⟩, hroot, rfl⟩ := Checked.map_eq_ok.mp htag
      exact ⟨given, rfl, hroot, hread, hchildren⟩
  | _ =>
      rw [Group.ofJson] at h
      · cases h
      · intro _ hkind
        cases hkind

/-- A tree is loaded exactly if it is read from the document, upgraded where that is asked for. -/
theorem load_eq_ok {legacy : Bool} :
    load legacy document = .ok g ↔ ∃ d, upgradeIf legacy document = .ok d ∧ Group.ofJson d = .ok g := by
  unfold load
  rw [bind_eq_ok]
  refine exists_congr fun d => and_congr_right fun _ => ?_
  cases Group.ofJson d <;> simp [Checked.toLoad]

/-- **A tree that is read from a document is read from the upgraded document**, unless its root is bare. -/
theorem load_upgraded (h : load false document = .ok g) (hroot : ¬Legacy.BareRoot document) :
    load true document = .ok g := by
  obtain ⟨_, hsame, hread⟩ := load_eq_ok.mp h
  cases hsame
  obtain ⟨given, rfl, htag, hlogic, hchildren⟩ := ofJson_eq_ok hread
  obtain ⟨items, fields, hfields, htagged, hreads⟩ := Condition.exists_tagged
    (Legacy.isGroup_of_checkRootTag htag hroot) hchildren
    (fun _ _ _ _ _ hc path => Condition.exists_upgraded hc path) []
  have hupgrade : upgradeIf true (.obj given) = .ok (.obj fields) := by
    unfold upgradeIf Legacy.upgrade
    rw [if_pos rfl, hfields]
    rfl
  have hchecked : checkRootTag fields = .ok () := by
    unfold checkRootTag
    rw [htagged.tag_eq]
  refine load_eq_ok.mpr ⟨_, hupgrade, ?_⟩
  rw [Group.ofJson, hchecked, htagged.readLogic, hlogic, hreads]
  rfl

/-- A tree whose root is bare is reported by an upgrade. -/
theorem load_bareRoot (h : load false document = .ok g) (hroot : Legacy.BareRoot document) :
    load true document = .error (.legacy (.untagged [])) := by
  obtain ⟨_, hsame, hread⟩ := load_eq_ok.mp h
  cases hsame
  obtain ⟨given, rfl, -⟩ := ofJson_eq_ok hread
  unfold load upgradeIf
  rw [if_pos rfl, Legacy.upgrade_of_bareRoot hroot]
  rfl

/-- **An upgrade takes nothing away.** A tree that is loaded from a document as it stands is loaded from it with an
upgrade as well, except where the root is bare: then the load is reported. And an upgraded document is not changed by
another upgrade, has at every place a leaf just as it was given there or a group with its tag and a list of children,
and has something at all places that the given one has. -/
theorem upgrade_conservative :
    (∀ document g, load false document = .ok g →
      (load true document = .ok g ↔ ¬Legacy.BareRoot document) ∧
      (Legacy.BareRoot document → ∃ e, load true document = .error e ∧ e.isReported = true ∧
        e.message = "Condition at path [] has no type tag")) ∧
    ∀ document upgraded, Legacy.upgrade document = .ok upgraded →
      Legacy.upgrade upgraded = .ok upgraded ∧
      (∀ place node, Legacy.Leads upgraded place node →
        ∃ given, Legacy.Leads document place given ∧ Legacy.Settled given node) ∧
      ∀ place given, Legacy.Leads document place given → ∃ node, Legacy.Leads upgraded place node := by
  constructor
  · intro document g h
    refine ⟨⟨?_, load_upgraded h⟩, ?_⟩
    · intro hupgraded hroot
      rw [load_bareRoot h hroot] at hupgraded
      cases hupgraded
    · intro hroot
      exact ⟨_, load_bareRoot h hroot, rfl, by decide +kernel⟩
  · intro document upgraded h
    refine ⟨Legacy.upgradeAt_upgraded h [], ?_, ?_⟩
    · intro place node hleads
      obtain ⟨given, hgiven, _, hnode⟩ := hleads.exists_given h
      exact ⟨given, hgiven, Legacy.settled_of_upgradeAt hnode⟩
    · intro place given hleads
      exact hleads.exists_upgraded h

/-- A root without a tag; below it a leaf with a key that means nothing, and a group without children. -/
def looseDocument : Json :=
  .obj [("conditions", .arr [
      .obj [("type", .str "POSITION"), ("conditions", .int 5)],
      .obj [("type", .str "GROUP"), ("logic", .str "OR")]]),
    ("logic", .str "AND")]

/-- The tree in it is the same with an upgrade, in which the group is given a list of no children and the leaf is left
alone. Without its combinator the root would be bare. -/
theorem upgrade_conservative_loose :
    load true looseDocument = .ok { children := [.leaf (.position {}), .group .or []] } ∧
    (∃ e, load true (.obj [("conditions", .arr [])]) = .error e ∧ e.isReported = true ∧
      e.message = "Condition at path [] has no type tag") ∧
    ∃ upgraded, Legacy.upgrade looseDocument = .ok upgraded ∧ Legacy.upgrade upgraded = .ok upgraded ∧
      (∃ leaf, Legacy.Leads looseDocument [0] leaf ∧
        Legacy.Settled leaf (.obj [("type", .str "POSITION"), ("conditions", .int 5)])) ∧
      ∃ group, Legacy.Leads looseDocument [1] group ∧
        Legacy.Settled group (.obj [("type", .str "GROUP"), ("logic", .str "OR"), ("conditions", .arr [])]) := by
  have hread : load false looseDocument = .ok { children := [.leaf (.position {}), .group .or []] } := rfl
  have hbare : load false (.obj [("conditions", .arr [])]) = .ok {} := rfl
  have hupgrade : Legacy.upgrade looseDocument = .ok (.obj [("conditions", .arr [
      .obj [("type", .str "POSITION"), ("conditions", .int 5)],
      .obj [("type", .str "GROUP"), ("logic", .str "OR"), ("conditions", .arr [])]]),
    ("logic", .str "AND"), ("type", .str "GROUP")]) := rfl
  obtain ⟨hload, hupgraded⟩ := upgrade_conservative
  obtain ⟨hagain, hsettled, -⟩ := hupgraded _ _ hupgrade
  refine ⟨(hload _ _ hread).1.mpr ?_, (hload _ _ hbare).2 ⟨rfl, .inl rfl⟩, _, hupgrade, hagain, ?_, ?_⟩
  · rintro ⟨-, hlogic | hconditions⟩
    · cases hlogic
    · cases hconditions
  · exact hsettled [0] _ (.there (.inl rfl) rfl rfl (.here _))
  · exact hsettled [1] _ (.there (.inl rfl) rfl rfl (.here _))

end Group

end TradingRules
