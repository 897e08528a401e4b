import Mathlib.Data.Set.List
import TradingRules.Condition.Edit
import TradingRules.Proofs.Storage.Offsets
import TradingRules.Proofs.Storage.Rules

/-!
# `Proofs.Editing.Reachable` — the trees that loading and editing lead to

What a document may look like that a tree is stored as is said here without the types of the model: which keys an
object has, which integers and which words stand under them. Trees are reached by loading any document or text, with
an upgrade or without, and by any edits after that. `stored_iff_tree`: what they are stored as are the documents that
fit, and no others, so neither a generous reading of a value nor an edit leads out of these bounds.

## Contents
* `Schema.Node`, `Schema.Tree` — the documents that fit;
* `Schema.node_toJson`, `Schema.exists_condition` — they are the stored forms of conditions;
* `Edit`, `Reachable` — loading and editing;
* `stored_iff_tree`.
-/

namespace TradingRules

open Fallible

/-! ## Documents that fit -/

namespace Schema

/-- A reference to an indicator: null, or an integer. -/
inductive Reference : Json → Prop
  | null : Reference .null
  | int (n : Int) : Reference (.int n)

/-- The name of a field that may be missing: null, or text. -/
inductive FieldName : Json → Prop
  | null : FieldName .null
  | str (s : String) : FieldName (.str s)

/-- An offset: an integer from 0 to 4. -/
inductive Offset : Json → Prop
  | int {n : Int} : 0 ≤ n → n ≤ 4 → Offset (.int n)

/-- A value: one double, or two. -/
inductive Value : Json → Prop
  | one (x : Float) : Value (.float x)
  | two (a b : Float) : Value (.arr [.float a, .float b])

/-- The six comparisons. -/
def comparisons : List String := ["GT", "GTE", "LT", "LTE", "EQ", "BETWEEN"]

/-- The two crossings. -/
def crossings : List String := ["CROSS_ABOVE", "CROSS_BELOW"]

/-- The four prices. -/
def prices : List String := ["closePrice", "openPrice", "highPrice", "lowPrice"]

/-- The two combinators. -/
def combinators : List String := ["AND", "OR"]

/-- A condition: an object of one of five shapes, each with its own keys. -/
inductive Node : Json → Prop
  | threshold {reference value index : Json} {field operator : String} : Reference reference →
      operator ∈ comparisons → Value value → Offset index →
      Node (.obj [("type", .str "THRESHOLD"), ("indicatorRef", reference), ("field", .str field),
        ("operator", .str operator), ("value", value), ("index", index)])
  | cross {reference target targetField index targetIndex : Json} {field operator : String} :
      Reference reference → operator ∈ crossings → Reference target → FieldName targetField → Offset index →
      Offset targetIndex →
      Node (.obj [("type", .str "CROSS"), ("indicatorRef", reference), ("field", .str field),
        ("operator", .str operator), ("targetRef", target), ("targetField", targetField), ("index", index),
        ("targetIndex", targetIndex)])
  | price {reference index : Json} {field operator price : String} : Reference reference →
      operator ∈ comparisons → price ∈ prices → Offset index →
      Node (.obj [("type", .str "PRICE"), ("indicatorRef", reference), ("field", .str field),
        ("operator", .str operator), ("priceField", .str price), ("index", index)])
  | position {value : Json} {field operator : String} : operator ∈ comparisons → Value value →
      Node (.obj [("type", .str "POSITION"), ("field", .str field), ("operator", .str operator), ("value", value)])
  | group {logic : String} {items : List Json} : logic ∈ combinators → (∀ item ∈ items, Node item) →
      Node (.obj [("type", .str "GROUP"), ("logic", .str logic), ("conditions", .arr items)])

/-- A tree: a condition that is a group. -/
structure Tree (document : Json) : Prop where
  node : Node document
  group : document.field? "type" = some (.str "GROUP")

/-! ## Stored forms -/

theorem reference_iff {value : Json} : Reference value ↔ ∃ indicator, indicatorJson indicator = value := by
  constructor
  · intro h
    cases h with
    | null => exact ⟨none, rfl⟩
    | int n => exact ⟨some n, rfl⟩
  · rintro ⟨indicator, rfl⟩
    cases indicator with
    | none => exact .null
    | some n => exact .int n

theorem fieldName_iff {value : Json} : FieldName value ↔ ∃ field, fieldJson field = value := by
  constructor
  · intro h
    cases h with
    | null => exact ⟨none, rfl⟩
    | str s => exact ⟨some s, rfl⟩
  · rintro ⟨field, rfl⟩
    cases field with
    | none => exact .null
    | some s => exact .str s

theorem offset_iff {value : Json} : Offset value ↔ ∃ i : TradingRules.Offset, i.toJson = value := by
  constructor
  · intro h
    cases h with
    | @int n hlow hhigh =>
        obtain ⟨i, rfl⟩ := Int.eq_ofNat_of_zero_le hlow
        exact ⟨⟨i, by unfold maxOffset; omega⟩, rfl⟩
  · rintro ⟨i, rfl⟩
    have hhigh := i.isLt
    unfold maxOffset at hhigh
    exact .int (by omega) (by omega)

theorem value_iff {value : Json} : Value value ↔ ∃ operand : Operand, operand.toJson = value := by
  constructor
  · intro h
    cases h with
    | one x => exact ⟨.scalar x, rfl⟩
    | two a b => exact ⟨.range a b, rfl⟩
  · rintro ⟨operand, rfl⟩
    cases operand with
    | scalar x => exact .one x
    | range a b => exact .two a b

/-- The words of a closed vocabulary are the names of its members. -/
theorem mem_names_iff {α : Type} (members : List α) (hall : ∀ a, a ∈ members) (name : α → String) {word : String} :
    word ∈ members.map name ↔ ∃ a, name a = word := by
  simp [hall]

theorem mem_comparisons_iff {word : String} : word ∈ comparisons ↔ ∃ c : Comparison, c.name = word :=
  mem_names_iff [.gt, .gte, .lt, .lte, .eq, .between] (fun c => by cases c <;> decide) Comparison.name

theorem mem_crossings_iff {word : String} : word ∈ crossings ↔ ∃ c : Crossing, c.name = word :=
  mem_names_iff [.above, .below] (fun c => by cases c <;> decide) Crossing.name

theorem mem_prices_iff {word : String} : word ∈ prices ↔ ∃ p : PriceField, p.name = word :=
  mem_names_iff [.closing, .opening, .highest, .lowest] (fun p => by cases p <;> decide) PriceField.name

theorem mem_combinators_iff {word : String} : word ∈ combinators ↔ ∃ l : Logic, l.name = word :=
  mem_names_iff [.and, .or] (fun l => by cases l <;> decide) Logic.name

/-- What a leaf is stored as fits. -/
theorem node_leaf (l : Leaf) : Node l.toJson := by
  cases l with
  | threshold t =>
      exact .threshold (reference_iff.mpr ⟨_, rfl⟩) (mem_comparisons_iff.mpr ⟨_, rfl⟩) (value_iff.mpr ⟨_, rfl⟩)
        (offset_iff.mpr ⟨_, rfl⟩)
  | cross c =>
      exact .cross (reference_iff.mpr ⟨_, rfl⟩) (mem_crossings_iff.mpr ⟨_, rfl⟩) (reference_iff.mpr ⟨_, rfl⟩)
        (fieldName_iff.mpr ⟨_, rfl⟩) (offset_iff.mpr ⟨_, rfl⟩) (offset_iff.mpr ⟨_, rfl⟩)
  | price p =>
      exact .price (reference_iff.mpr ⟨_, rfl⟩) (mem_comparisons_iff.mpr ⟨_, rfl⟩) (mem_prices_iff.mpr ⟨_, rfl⟩)
        (offset_iff.mpr ⟨_, rfl⟩)
  | position p => exact .position (mem_comparisons_iff.mpr ⟨_, rfl⟩) (value_iff.mpr ⟨_, rfl⟩)

/-- **What a condition is stored as fits**, at every depth. -/
theorem node_toJson (c : Condition) : Node c.toJson := by
  induction c with
  | leaf l =>
      rw [Condition.toJson]
      exact node_leaf l
  | group logic children ih =>
      rw [Condition.toJson, Condition.toJsonAll_eq_map]
      refine .group (mem_combinators_iff.mpr ⟨_, rfl⟩) fun item hitem => ?_
      obtain ⟨child, hchild, rfl⟩ := List.mem_map.mp hitem
      exact ih child hchild

/-- Documents each of which is stored for a condition are stored for a list of them. -/
theorem exists_children {items : List Json} (h : ∀ item ∈ items, ∃ c : Condition, c.toJson = item) :
    ∃ children : List Condition, children.map Condition.toJson = items := by
  have hrange : items ∈ {l | ∀ item ∈ l, item ∈ Set.range Condition.toJson} := h
  rwa [← Set.range_list_map] at hrange

/-- **A document that fits is what some condition is stored as.** -/
theorem exists_condition {document : Json} (h : Node document) : ∃ c : Condition, c.toJson = document := by
  induction h with
  | @threshold _ _ _ field _ hreference hoperator hvalue hindex =>
      obtain ⟨indicator, rfl⟩ := reference_iff.mp hreference
      obtain ⟨comparison, rfl⟩ := mem_comparisons_iff.mp hoperator
      obtain ⟨operand, rfl⟩ := value_iff.mp hvalue
      obtain ⟨index, rfl⟩ := offset_iff.mp hindex
      refine ⟨.leaf (.threshold ⟨indicator, field, comparison, operand, index⟩), ?_⟩
      rw [Condition.toJson]
      rfl
  | @cross _ _ _ _ _ field _ hreference hoperator htarget htargetField hindex htargetIndex =>
      obtain ⟨indicator, rfl⟩ := reference_iff.mp hreference
      obtain ⟨crossing, rfl⟩ := mem_crossings_iff.mp hoperator
      obtain ⟨target, rfl⟩ := reference_iff.mp htarget
      obtain ⟨targetField, rfl⟩ := fieldName_iff.mp htargetField
      obtain ⟨index, rfl⟩ := offset_iff.mp hindex
      obtain ⟨targetIndex, rfl⟩ := offset_iff.mp htargetIndex
      refine ⟨.leaf (.cross ⟨indicator, field, crossing, target, targetField, index, targetIndex⟩), ?_⟩
      rw [Condition.toJson]
      rfl
  | @price _ _ field _ _ hreference hoperator hprice hindex =>
      obtain ⟨indicator, rfl⟩ := reference_iff.mp hreference
      obtain ⟨comparison, rfl⟩ := mem_comparisons_iff.mp hoperator
      obtain ⟨price, rfl⟩ := mem_prices_iff.mp hprice
      obtain ⟨index, rfl⟩ := offset_iff.mp hindex
      refine ⟨.leaf (.price ⟨indicator, field, comparison, price, index⟩), ?_⟩
      rw [Condition.toJson]
      rfl
  | @position _ field _ hoperator hvalue =>
      obtain ⟨comparison, rfl⟩ := mem_comparisons_iff.mp hoperator
      obtain ⟨operand, rfl⟩ := value_iff.mp hvalue
      refine ⟨.leaf (.position ⟨field, comparison, operand⟩), ?_⟩
      rw [Condition.toJson]
      rfl
  | group hlogic _ ih =>
      obtain ⟨logic, rfl⟩ := mem_combinators_iff.mp hlogic
      obtain ⟨children, rfl⟩ := exists_children ih
      refine ⟨.group logic children, ?_⟩
      rw [Condition.toJson, Condition.toJsonAll_eq_map]
      rfl

end Schema

/-! ## Loading and editing -/

/-- What an edit does with the node that a path addresses. -/
inductive Edit where
  | update (f : Updater)
  | add (draft : Draft)
  | remove
  | replace (draft : Option Draft)
  | setLogic (value : Json)

/-- Makes an edit at a path. -/
def Edit.apply (root : Group) (path : Path) (strict : Bool) : Edit → Except EditError Group
  | .update f => root.update path f strict
  | .add draft => root.add path draft strict
  | .remove => root.remove path strict
  | .replace draft => root.replace path draft strict
  | .setLogic value => root.setLogic path value strict

/-- A tree is loaded from a document or a text, by itself or with a rule, or is what an edit makes of such a tree. -/
inductive Reachable : Group → Prop
  | tree {legacy : Bool} {document : Json} {g : Group} : Group.load legacy document = .ok g → Reachable g
  | text {limit : Json.DigitLimit} {legacy : Bool} {text : String} {g : Group} :
      Group.loadText limit legacy text = .ok g → Reachable g
  | rule {legacy : Bool} {document : Json} {r : Rule} : Rule.load legacy document = .ok r → Reachable r.tree
  | rules {legacy : Bool} {document : Json} {rules : RuleSet} {r : Rule} :
      RuleSet.load legacy document = .ok rules → r ∈ rules.buying ++ rules.selling → Reachable r.tree
  | edit {root g : Group} {path : Path} {strict : Bool} (e : Edit) : Reachable root →
      e.apply root path strict = .ok g → Reachable g

/-- What a group is stored as is a tree that fits. -/
theorem Schema.tree_toJson (g : Group) : Schema.Tree g.toJson := by
  refine ⟨Schema.node_toJson g.toCondition, ?_⟩
  rw [g.toJson_eq, g.fields_toJson]
  rfl

/-- A tree that fits is what some group is stored as. -/
theorem Schema.exists_group {document : Json} (h : Schema.Tree document) : ∃ g : Group, g.toJson = document := by
  obtain ⟨hnode, hgroup⟩ := h
  obtain ⟨c, rfl⟩ := Schema.exists_condition hnode
  cases c with
  | group logic children => exact ⟨⟨logic, children⟩, rfl⟩
  | leaf l =>
      have htag : some (Json.str l.kind.name) ≠ some (.str "GROUP") := by
        cases l.kind <;> decide
      rw [Condition.toJson, l.toJson_eq] at hgroup
      exact absurd (l.lookup_type.symm.trans hgroup) htag

/-- **Loading and editing lead to well-formed trees, and to all of them.** The stored forms of the trees that are
reached are the documents that fit. No offset gets there by being moved into its bounds: each is the integer that
the value given for it counts as. -/
theorem stored_iff_tree :
    (∀ document, (∃ g, Reachable g ∧ g.toJson = document) ↔ Schema.Tree document) ∧
      ∀ fields l, Condition.ofJson (.obj fields) = .ok (.leaf l) → ∀ key : Key, key = .index ∨ key = .targetIndex →
        ∀ stored, l.toJson.field? key.camel = some stored → OffsetAsGiven fields key stored := by
  constructor
  · intro document
    constructor
    · rintro ⟨g, -, rfl⟩
      exact Schema.tree_toJson g
    · intro h
      obtain ⟨g, rfl⟩ := Schema.exists_group h
      exact ⟨g, .tree (g.load_respelled false (.same _)), rfl⟩
  · intro fields l h key hkey stored hstored
    exact Condition.offsetAsGiven_of_ofJson h hkey hstored

/-- A crossing under an older name whose offsets are text and a truth value. -/
def looseCrossing : List (String × Json) :=
  [("type", .str "CROSS"), ("operator", .str "LT"), ("index", .str " 4 "), ("target_index", .bool true)]

/-- Added to a tree without a tag, it is stored under its current name and with integers for its offsets. -/
theorem stored_iff_tree_loose :
    (∃ g, Reachable g ∧ g.toJson =
        .obj [("type", .str "GROUP"), ("logic", .str "OR"), ("conditions", .arr [
          .obj [("type", .str "CROSS"), ("indicatorRef", .null), ("field", .str ""), ("operator", .str "CROSS_BELOW"),
            ("targetRef", .null), ("targetField", .null), ("index", .int 4), ("targetIndex", .int 1)]])] ∧
      Schema.Tree g.toJson) ∧
    Condition.ofJson (.obj looseCrossing) = .ok (.leaf (.cross { crossing := .below, index := 4, targetIndex := 1 })) ∧
    OffsetAsGiven looseCrossing .index (.int 4) ∧ OffsetAsGiven looseCrossing .targetIndex (.int 1) := by
  have hload : Group.load true (.obj [("logic", .str "OR"), ("conditions", .arr [])]) = .ok { logic := .or } := rfl
  have hadd : (Edit.add (.document (.obj looseCrossing))).apply { logic := .or } [] false =
      .ok { logic := .or, children := [.leaf (.cross { crossing := .below, index := 4, targetIndex := 1 })] } := rfl
  have hread : Condition.ofJson (.obj looseCrossing) =
      .ok (.leaf (.cross { crossing := .below, index := 4, targetIndex := 1 })) := rfl
  obtain ⟨hstored, hgiven⟩ := stored_iff_tree
  refine ⟨⟨_, .edit _ (.tree hload) hadd, rfl, ?_⟩, hread, ?_, ?_⟩
  · exact (hstored _).mp ⟨_, .edit _ (.tree hload) hadd, rfl⟩
  · exact hgiven _ _ hread .index (.inl rfl) _ rfl
  · exact hgiven _ _ hread .targetIndex (.inr rfl) _ rfl

end TradingRules
