import TradingRules.Condition.Legacy
import TradingRules.Proofs.Condition.Leaves
import TradingRules.Proofs.Fallible
import TradingRules.Proofs.Storage.Spelling
import TradingRules.Proofs.Storage.Upgrade

/-!
# `Proofs.Storage.Conditions` — conditions read back from any spelling

A condition that is stored, respelled and read is the condition it was. Each field of a leaf is stored under its
own key, as the one value that its reader takes for it: no reader takes what another one stored. A document that
carries all its tags is not changed by an upgrade, however it is spelled.

## Contents
* `readOperand_toJson` and others — what every reader makes of what is stored;
* `Leaf.read_respelled` — leaves;
* `Condition.ofJson_respelled`, `Group.ofJson_respelled` — trees;
* `Condition.upgradeAt_respelled` — trees in an upgrade.
-/

namespace TradingRules

/-! ## Values -/

theorem readName_name {α : Type} {ofName? : String → Option α} {name : String} {a : α}
    (h : ofName? name = some a) : readName ofName? (.str name) = .ok a := by
  unfold readName
  dsimp only
  rw [h]

theorem readIndicator_toJson (indicator : Option Int) :
    readOptional readInteger (indicatorJson indicator) = .ok indicator := by
  cases indicator <;> rfl

theorem readField_toJson (field : Option String) : readOptional readText (fieldJson field) = .ok field := by
  cases field <;> rfl

theorem readOffset_toJson (i : Offset) : readOffset (Offset.toJson i) = .ok i := by
  have hnatural : readNatural (Offset.toJson i) = .ok i.val := rfl
  unfold readOffset
  rw [hnatural]
  exact dif_pos i.isLt

/-- A constant is not taken for two bounds, and two bounds are not taken for a constant. -/
theorem readOperand_toJson (operand : Operand) : readOperand operand.toJson = .ok operand := by
  cases operand <;> rfl

theorem fixed_indicatorJson (indicator : Option Int) : (indicatorJson indicator).Fixed := by
  cases indicator with
  | none => exact Json.fixed_null
  | some n => exact Json.fixed_int n

theorem fixed_fieldJson (field : Option String) : (fieldJson field).Fixed := by
  cases field with
  | none => exact Json.fixed_null
  | some s => exact Json.fixed_str s

theorem Operand.fixed_toJson (operand : Operand) : operand.toJson.Fixed := by
  cases operand with
  | scalar x => exact Json.fixed_float x
  | range a b =>
      refine Json.fixed_arr ?_
      simp only [List.forall_mem_cons]
      exact ⟨Json.fixed_float a, Json.fixed_float b, List.forall_mem_nil _⟩

/-- A crossing is read from its current name and from its older one. -/
theorem readCrossing_respelled {crossing : Prop} {c : Crossing} {g : String × Json}
    (h : RespelledField crossing ("operator", .str c.name) g) : readCrossing g.2 = .ok c := by
  generalize hf : (("operator", .str c.name) : String × Json) = f at h
  cases h with
  | field _ hvalue =>
      cases hf
      rw [Json.fixed_str _ _ hvalue]
      cases c <;> rfl
  | older c' _ =>
      -- the older name was put in place of the name of this crossing and of no other
      have hname : c.name = c'.name := Json.str.inj (congrArg Prod.snd hf)
      have hsame : c = c' := by
        have hof := congrArg Crossing.ofName? hname
        rwa [Crossing.ofName?_name, Crossing.ofName?_name, Option.some.injEq] at hof
      rw [hsame]
      cases c' <;> rfl

/-! ## Leaves -/

/-- The fields of an object. -/
def Json.fields : Json → List (String × Json)
  | .obj fields => fields
  | _ => []

namespace Leaf

variable {l : Leaf}

theorem toJson_eq (l : Leaf) : l.toJson = .obj l.toJson.fields := by
  cases l <;> rfl

theorem lookup_type (l : Leaf) : l.toJson.fields.lookup "type" = some (.str l.kind.name) := by
  cases l <;> rfl

theorem distinct_toJson (l : Leaf) : DistinctKeys l.toJson.fields := by
  cases l with
  | threshold _ =>
      show (["type", "indicatorRef", "field", "operator", "value", "index"].map firstSpelling).Nodup
      decide +kernel
  | cross _ =>
      show (["type", "indicatorRef", "field", "operator", "targetRef", "targetField", "index",
        "targetIndex"].map firstSpelling).Nodup
      decide +kernel
  | price _ =>
      show (["type", "indicatorRef", "field", "operator", "priceField", "index"].map firstSpelling).Nodup
      decide +kernel
  | position _ =>
      show (["type", "field", "operator", "value"].map firstSpelling).Nodup
      decide +kernel

/-- Only a crossing is one. -/
theorem not_isCrossing (hkind : l.kind ≠ .cross) : ¬IsCrossing l.toJson.fields := by
  intro h
  unfold IsCrossing at h
  rw [lookup_type, Option.some.injEq, Json.str.injEq] at h
  have hof := congrArg LeafKind.ofName? h
  rw [LeafKind.ofName?_name, LeafKind.ofName?_name, Option.some.injEq] at hof
  exact hkind hof

theorem exists_stored {d : Json} (h : Respelled l.toJson d) :
    ∃ reordered, d = .obj reordered ∧ Stored l.toJson.fields reordered := by
  rw [toJson_eq] at h
  exact h.exists_stored l.distinct_toJson

end Leaf

namespace Stored

variable {fields reordered : List (String × Json)}

theorem read_indicator (key : Key) (h : Stored fields reordered) (hkey : key ∈ Key.stored) (hname : key.camel ≠ "operator")
    {indicator : Option Int} (hvalue : fields.lookup key.camel = some (indicatorJson indicator)) :
    key.read none (readOptional readInteger) reordered = .ok indicator :=
  h.read_eq hkey hvalue
    (reader_of_fixed (fixed_indicatorJson indicator) (fun _ => hname) (readIndicator_toJson indicator))

theorem read_offset (key : Key) (h : Stored fields reordered) (hkey : key ∈ Key.stored) (hname : key.camel ≠ "operator")
    {i : Offset} (hvalue : fields.lookup key.camel = some (Offset.toJson i)) :
    key.read Offset.current readOffset reordered = .ok i :=
  h.read_eq hkey hvalue
    (reader_of_fixed (Json.fixed_int i.val) (fun _ => hname) (readOffset_toJson i))

theorem read_field (h : Stored fields reordered) {field : String}
    (hvalue : fields.lookup "field" = some (.str field)) : Key.field.read "" readText reordered = .ok field :=
  h.read_eq (by decide) hvalue (reader_of_fixed (Json.fixed_str field) (fun _ => by decide) rfl)

theorem read_comparison (h : Stored fields reordered) (hcrossing : ¬IsCrossing fields) {c : Comparison}
    (hvalue : fields.lookup "operator" = some (.str c.name)) {default : Comparison} :
    Key.operator.read default (readName Comparison.ofName?) reordered = .ok c :=
  h.read_eq (by decide) hvalue
    (reader_of_fixed (Json.fixed_str c.name) (fun hc => absurd hc hcrossing) (readName_name c.ofName?_name))

theorem read_operand (h : Stored fields reordered) {operand : Operand}
    (hvalue : fields.lookup "value" = some operand.toJson) :
    Key.value.read (.scalar 0.0) readOperand reordered = .ok operand :=
  h.read_eq (by decide) hvalue
    (reader_of_fixed operand.fixed_toJson (fun _ => by decide) (readOperand_toJson operand))

end Stored

section Kinds

variable {reordered : List (String × Json)}

theorem Threshold.read_respelled {t : Threshold} (h : Stored (Leaf.threshold t).toJson.fields reordered) :
    Threshold.read reordered = .ok t := by
  have hcrossing : ¬IsCrossing (Leaf.threshold t).toJson.fields := Leaf.not_isCrossing nofun
  unfold Threshold.read
  rw [h.read_indicator .indicator (by decide) (by decide) rfl, h.read_field rfl,
    h.read_comparison hcrossing rfl, h.read_operand rfl, h.read_offset .index (by decide) (by decide) rfl]
  rfl

theorem Cross.read_respelled {c : Cross} (h : Stored (Leaf.cross c).toJson.fields reordered) :
    Cross.read reordered = .ok c := by
  have hcrossing : Key.operator.read .above readCrossing reordered = .ok c.crossing :=
    h.read_eq (by decide) rfl fun _ => readCrossing_respelled
  have htargetField : Key.targetField.read none (readOptional readText) reordered = .ok c.targetField :=
    h.read_eq (by decide) rfl
      (reader_of_fixed (fixed_fieldJson c.targetField) (fun _ => by decide) (readField_toJson c.targetField))
  unfold Cross.read
  rw [h.read_indicator .indicator (by decide) (by decide) rfl, h.read_field rfl, hcrossing,
    h.read_indicator .target (by decide) (by decide) rfl, htargetField,
    h.read_offset .index (by decide) (by decide) rfl,
    h.read_offset .targetIndex (by decide) (by decide) rfl]
  rfl

theorem PriceTest.read_respelled {p : PriceTest} (h : Stored (Leaf.price p).toJson.fields reordered) :
    PriceTest.read reordered = .ok p := by
  have hcrossing : ¬IsCrossing (Leaf.price p).toJson.fields := Leaf.not_isCrossing nofun
  have hprice : Key.price.read .closing (readName PriceField.ofName?) reordered = .ok p.price :=
    h.read_eq (by decide) rfl
      (reader_of_fixed (Json.fixed_str p.price.name) (fun _ => by decide) (readName_name p.price.ofName?_name))
  unfold PriceTest.read
  rw [h.read_indicator .indicator (by decide) (by decide) rfl, h.read_field rfl,
    h.read_comparison hcrossing rfl, hprice, h.read_offset .index (by decide) (by decide) rfl]
  rfl

theorem PositionTest.read_respelled {p : PositionTest} (h : Stored (Leaf.position p).toJson.fields reordered) :
    PositionTest.read reordered = .ok p := by
  have hcrossing : ¬IsCrossing (Leaf.position p).toJson.fields := Leaf.not_isCrossing nofun
  unfold PositionTest.read
  rw [h.read_field rfl, h.read_comparison hcrossing rfl, h.read_operand rfl]
  rfl

/-- **A leaf is read back** from any spelling of its fields. -/
theorem Leaf.read_respelled {l : Leaf} (h : Stored l.toJson.fields reordered) :
    Leaf.read l.kind reordered = .ok l := by
  cases l with
  | threshold t =>
      show (Threshold.read reordered).map Leaf.threshold = _
      rw [Threshold.read_respelled h, Checked.map_ok]
  | cross c =>
      show (Cross.read reordered).map Leaf.cross = _
      rw [Cross.read_respelled h, Checked.map_ok]
  | price p =>
      show (PriceTest.read reordered).map Leaf.price = _
      rw [PriceTest.read_respelled h, Checked.map_ok]
  | position p =>
      show (PositionTest.read reordered).map Leaf.position = _
      rw [PositionTest.read_respelled h, Checked.map_ok]

/-- A leaf keeps its tag. -/
theorem Leaf.lookup_type_respelled {l : Leaf} (h : Stored l.toJson.fields reordered) :
    reordered.lookup "type" = some (.str l.kind.name) := by
  obtain ⟨value, hlookup, hfield⟩ := h.exists_lookup (by decide) l.lookup_type
  have hvalue : value = .str l.kind.name := hfield.value_eq (Json.fixed_str l.kind.name) fun _ => by decide
  rw [hlookup, hvalue]

end Kinds

/-! ## Trees -/

/-- The children of a group are those of its first field that holds them. -/
theorem Condition.ofFields_of_lookup {fields : List (String × Json)} {value : Json}
    (h : fields.lookup "conditions" = some value) :
    ofFields fields = (ofList value).under (.key "conditions") := by
  induction fields with
  | nil => cases h
  | cons f fields ih =>
      obtain ⟨name, other⟩ := f
      rw [ofFields]
      by_cases hname : name = "conditions"
      · subst hname
        rw [List.lookup_cons_self, Option.some.injEq] at h
        rw [if_pos rfl, h]
      · rw [Assoc.lookup_cons_of_ne hname] at h
        rw [if_neg hname, ih h]

/-- Items that are read one by one are read together. -/
theorem Condition.ofItems_of_forall₂ {items : List Json} {children : List Condition}
    (h : List.Forall₂ (fun c d => ofJson d = .ok c) children items) (i : Nat) : ofItems i items = .ok children := by
  induction h generalizing i with
  | nil => rw [ofItems]
  | cons hitem _ ih =>
      rw [ofItems, hitem, ih]
      rfl

namespace Group

variable {g : Group} {reordered : List (String × Json)}

theorem toJson_eq (g : Group) : g.toJson = .obj g.toJson.fields := by
  unfold toJson toCondition
  rw [Condition.toJson]
  rfl

theorem fields_toJson (g : Group) :
    g.toJson.fields = [("type", .str groupTag), ("logic", .str g.logic.name),
      ("conditions", .arr (g.children.map Condition.toJson))] := by
  unfold toJson toCondition
  rw [Condition.toJson, Condition.toJsonAll_eq_map]
  rfl

theorem exists_stored {d : Json} (h : Respelled g.toJson d) :
    ∃ reordered, d = .obj reordered ∧ Stored g.toJson.fields reordered := by
  rw [toJson_eq] at h
  refine h.exists_stored ?_
  rw [fields_toJson]
  show (["type", "logic", "conditions"].map firstSpelling).Nodup
  decide +kernel

/-- A group keeps its tag. -/
theorem lookup_type_respelled (h : Stored g.toJson.fields reordered) :
    reordered.lookup "type" = some (.str groupTag) := by
  have htag : g.toJson.fields.lookup "type" = some (.str groupTag) := by
    rw [fields_toJson]
    rfl
  obtain ⟨value, hlookup, hfield⟩ := h.exists_lookup (by decide) htag
  have hvalue : value = .str groupTag := hfield.value_eq (Json.fixed_str groupTag) fun _ => by decide
  rw [hlookup, hvalue]

/-- A group keeps its combinator. -/
theorem readLogic_respelled (h : Stored g.toJson.fields reordered) : Logic.read reordered = .ok g.logic := by
  refine h.read_eq (by decide) ?_
    (reader_of_fixed (Json.fixed_str g.logic.name) (fun _ => by decide) (readName_name g.logic.ofName?_name))
  rw [fields_toJson]
  rfl

/-- A group keeps its children, each in another spelling. -/
theorem exists_children (h : Stored g.toJson.fields reordered) :
    ∃ items, reordered.lookup "conditions" = some (.arr items) ∧
      List.Forall₂ (fun (c : Condition) d => Respelled c.toJson d) g.children items := by
  have hchildren : g.toJson.fields.lookup "conditions" = some (.arr (g.children.map Condition.toJson)) := by
    rw [fields_toJson]
    rfl
  obtain ⟨value, hlookup, hfield⟩ := h.exists_lookup (by decide) hchildren
  have hvalue : Respelled (.arr (g.children.map Condition.toJson)) value := hfield.respelled fun _ => by decide
  obtain ⟨items, rfl, hitems⟩ := hvalue.of_arr
  exact ⟨items, hlookup, List.forall₂_map_left_iff.mp hitems⟩

/-- The children of a group are read back if each of them is. -/
theorem ofFields_respelled (ih : ∀ c ∈ g.children, ∀ {d}, Respelled c.toJson d → Condition.ofJson d = .ok c)
    (h : Stored g.toJson.fields reordered) : Condition.ofFields reordered = .ok g.children := by
  obtain ⟨items, hlookup, hitems⟩ := exists_children h
  have hread : List.Forall₂ (fun c d => Condition.ofJson d = .ok c) g.children items :=
    ((List.forall₂_and_left _ _).mpr ⟨ih, hitems⟩).imp fun _ _ hchild => hchild.1 hchild.2
  rw [Condition.ofFields_of_lookup hlookup, Condition.ofList, Condition.ofItems_of_forall₂ hread 0,
    Checked.under_ok]

/-- A group is read back as a condition if its children are. -/
theorem ofJson_toCondition {d : Json} (ih : ∀ c ∈ g.children, ∀ {d}, Respelled c.toJson d → Condition.ofJson d = .ok c)
    (h : Respelled g.toJson d) : Condition.ofJson d = .ok g.toCondition := by
  obtain ⟨reordered, rfl, hstored⟩ := exists_stored h
  have htag : Tag.of reordered = .group := by
    unfold Tag.of
    rw [lookup_type_respelled hstored]
    rfl
  rw [Condition.ofJson, htag]
  dsimp only
  rw [readLogic_respelled hstored, ofFields_respelled ih hstored]
  rfl

end Group

/-- A leaf is read back as a condition. -/
theorem Leaf.ofJson_toCondition {l : Leaf} {d : Json} (h : Respelled l.toJson d) :
    Condition.ofJson d = .ok (.leaf l) := by
  obtain ⟨reordered, rfl, hstored⟩ := exists_stored h
  have htag : Tag.of reordered = .leaf l.kind := by
    unfold Tag.of
    rw [lookup_type_respelled hstored]
    cases l.kind <;> rfl
  rw [Condition.ofJson, htag]
  dsimp only
  rw [read_respelled hstored]
  rfl

/-- **A condition is read back** from any spelling. -/
theorem Condition.ofJson_respelled (c : Condition) {d : Json} (h : Respelled c.toJson d) : ofJson d = .ok c := by
  induction c generalizing d with
  | leaf l =>
      rw [toJson] at h
      exact Leaf.ofJson_toCondition h
  | group logic children ih => exact Group.ofJson_toCondition (g := ⟨logic, children⟩) ih h

/-- **A tree is read back** from any spelling. -/
theorem Group.ofJson_respelled (g : Group) {d : Json} (h : Respelled g.toJson d) : Group.ofJson d = .ok g := by
  obtain ⟨reordered, rfl, hstored⟩ := exists_stored h
  have htag : checkRootTag reordered = .ok () := by
    unfold checkRootTag Tag.of
    rw [lookup_type_respelled hstored]
    rfl
  rw [Group.ofJson, htag, readLogic_respelled hstored,
    ofFields_respelled (fun c _ => c.ofJson_respelled) hstored]
  rfl

/-! ## Upgrades -/

namespace Legacy

/-- The fields of a group whose children are up to date are so. -/
theorem upgradeFields_of_lookup {path : List Nat} {fields : List (String × Json)} {items : List Json}
    (h : fields.lookup "conditions" = some (.arr items)) (hitems : upgradeItems path 0 items = .ok items) :
    upgradeFields path fields = .ok fields := by
  rw [upgradeFields_eq h, upgradeChildren, hitems]
  show Except.ok (Assoc.insert fields "conditions" (.arr items)) = _
  rw [Assoc.insert_of_lookup h]

theorem upgradeItems_of_forall {path : List Nat} {items : List Json}
    (h : ∀ item ∈ items, ∀ place, upgradeAt place item = .ok item) (i : Nat) :
    upgradeItems path i items = .ok items := by
  induction items generalizing i with
  | nil => rw [upgradeItems]
  | cons item items ih =>
      rw [upgradeItems, h item List.mem_cons_self, ih fun other hother => h other (List.mem_cons_of_mem _ hother)]
      rfl

/-- A group that has its tag and its children keeps its fields. -/
theorem tagGroup_eq {fields : List (String × Json)} {items : List Json}
    (htag : fields.lookup "type" = some (.str groupTag)) (hitems : fields.lookup "conditions" = some (.arr items)) :
    tagGroup fields = fields := by
  unfold tagGroup
  rw [htag, hitems]
  dsimp only [Option.isSome_some, Option.getD_some]
  rw [if_pos rfl, if_neg nofun]

end Legacy

/-- **A condition that carries all its tags is not changed by an upgrade**, however it is spelled. -/
theorem Condition.upgradeAt_respelled (c : Condition) {d : Json} (h : Respelled c.toJson d) (path : List Nat) :
    Legacy.upgradeAt path d = .ok d := by
  induction c generalizing d path with
  | leaf l =>
      rw [toJson] at h
      obtain ⟨reordered, rfl, hstored⟩ := Leaf.exists_stored h
      have hclass : Legacy.classify path reordered = .leaf := by
        unfold Legacy.classify
        rw [Leaf.lookup_type_respelled hstored]
        cases l.kind <;> rfl
      rw [Legacy.upgradeAt, hclass]
  | group logic children ih =>
      obtain ⟨reordered, rfl, hstored⟩ := Group.exists_stored (g := ⟨logic, children⟩) h
      have htag := Group.lookup_type_respelled hstored
      obtain ⟨items, hlookup, hitems⟩ := Group.exists_children hstored
      have hclass : Legacy.classify path reordered = .group := by
        unfold Legacy.classify
        rw [htag]
        rfl
      have hchildren : ∀ item ∈ items, ∀ place, Legacy.upgradeAt place item = .ok item := by
        refine Fallible.forall_mem_of_forall₂ (P := fun item => ∀ place, Legacy.upgradeAt place item = .ok item)
          (((List.forall₂_and_left _ _).mpr ⟨ih, hitems⟩).imp ?_)
        rintro child item ⟨hchild, hitem⟩
        exact hchild hitem
      rw [Legacy.upgradeAt, hclass]
      dsimp only
      -- neither the children nor the tag are put in anew
      rw [Legacy.upgradeFields_of_lookup hlookup (Legacy.upgradeItems_of_forall hchildren 0)]
      show Except.ok (Json.obj (Legacy.tagGroup reordered)) = _
      rw [Legacy.tagGroup_eq htag hlookup]

end TradingRules
