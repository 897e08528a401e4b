import TradingRules.Proofs.Storage.Conditions
import TradingRules.Rule.Storage

/-!
# `Proofs.Storage.Rules` — rule sets read back from any spelling

What is stored of a strategy is all there is of it: a rule set that is stored, respelled and loaded is the rule
set it was, whether or not the document is upgraded first: `load_any_spelling`. A rule's fields and the tree in it
are respelled each on its own, so the law for trees carries over to rules, and from them to their lists.

## Contents
* `Rule.ofJson_respelled`, `Rule.load_respelled` — rules;
* `load_any_spelling` — rule sets and trees; `crossedStrategy` is one.
-/

namespace TradingRules

open Fallible

/-- A tree that carries all its tags is not changed by an upgrade. -/
theorem upgradeIf_respelled (legacy : Bool) {g : Group} {d : Json} (h : Respelled g.toJson d) :
    upgradeIf legacy d = .ok d := by
  cases legacy with
  | false => rfl
  | true =>
      unfold upgradeIf Legacy.upgrade
      rw [if_pos rfl, g.toCondition.upgradeAt_respelled h]
      rfl

/-! ## Rules -/

namespace Rule

variable {r : Rule} {reordered : List (String × Json)}

theorem toJson_eq (r : Rule) : r.toJson = .obj r.toJson.fields := rfl

theorem exists_stored {d : Json} (h : Respelled r.toJson d) :
    ∃ reordered, d = .obj reordered ∧ Stored r.toJson.fields reordered := by
  rw [toJson_eq] at h
  refine h.exists_stored ?_
  show (["ruleNo", "ruleType", "priority", "isActive", "conditions"].map firstSpelling).Nodup
  decide +kernel

/-- A rule keeps its tree, in another spelling. -/
theorem exists_tree (h : Stored r.toJson.fields reordered) :
    ∃ tree, reordered.lookup "conditions" = some (.obj tree) ∧ Respelled r.tree.toJson (.obj tree) := by
  have htree : r.toJson.fields.lookup "conditions" = some r.tree.toJson := rfl
  obtain ⟨value, hlookup, hfield⟩ := h.exists_lookup (by decide) htree
  have hvalue : Respelled r.tree.toJson value := hfield.respelled fun _ => by decide
  obtain ⟨tree, rfl, -⟩ := Group.exists_stored hvalue
  exact ⟨tree, hlookup, hvalue⟩

/-- **A rule is read back** from any spelling. -/
theorem ofJson_respelled (h : Stored r.toJson.fields reordered) : Rule.ofJson (.obj reordered) = .ok r := by
  have hnumber : Key.number.require readNatural reordered = .ok r.number :=
    h.require_eq (by decide) rfl (reader_of_fixed (Json.fixed_int r.number) (fun _ => by decide) rfl)
  have hside : Key.side.require (readName Side.ofName?) reordered = .ok r.side :=
    h.require_eq (by decide) rfl
      (reader_of_fixed (Json.fixed_str r.side.name) (fun _ => by decide) (readName_name r.side.ofName?_name))
  have hpriority : Key.priority.read 0 readNatural reordered = .ok r.priority :=
    h.read_eq (by decide) rfl (reader_of_fixed (Json.fixed_int r.priority) (fun _ => by decide) rfl)
  have hactive : Key.active.read true readTruth reordered = .ok r.active :=
    h.read_eq (by decide) rfl (reader_of_fixed (Json.fixed_bool r.active) (fun _ => by decide) rfl)
  have htree : Key.conditions.read {} Group.ofJson reordered = .ok r.tree :=
    h.read_eq (by decide) rfl fun _ hfield => r.tree.ofJson_respelled (hfield.respelled fun _ => by decide)
  rw [Rule.ofJson, hnumber, hside, hpriority, hactive, htree]
  rfl

/-- A rule whose tree carries all its tags is not changed by an upgrade. -/
theorem upgradeRule_respelled (h : Stored r.toJson.fields reordered) : upgradeRule reordered = .ok reordered := by
  obtain ⟨tree, hlookup, htree⟩ := exists_tree h
  unfold upgradeRule
  rw [hlookup]
  dsimp only
  rw [upgradeIf_respelled true htree]
  show Except.ok (Assoc.insert reordered "conditions" (.obj tree)) = _
  rw [Assoc.insert_of_lookup hlookup]

/-- **A rule is loaded** from any spelling, with an upgrade and without. -/
theorem load_respelled (legacy : Bool) {d : Json} (h : Respelled r.toJson d) : Rule.load legacy d = .ok r := by
  obtain ⟨reordered, rfl, hstored⟩ := exists_stored h
  cases legacy with
  | false =>
      rw [Rule.load, ofJson_respelled hstored]
      rfl
  | true =>
      rw [Rule.load, upgradeRule_respelled hstored]
      show (Rule.ofJson (.obj reordered)).toLoad .rule = _
      rw [ofJson_respelled hstored]
      rfl

end Rule

/-! ## Rule sets -/

namespace RuleSet

/-- The rules of one side are loaded from any spelling. -/
theorem loadSide_respelled (legacy : Bool) {key : Key} (hkey : key ∈ Key.stored) (hname : key.camel ≠ "operator")
    {fields reordered : List (String × Json)} (h : Stored fields reordered) {rules : List Rule}
    (hrules : fields.lookup key.camel = some (.arr (rules.map Rule.toJson))) :
    loadSide legacy key reordered = .ok rules := by
  obtain ⟨used, value, hfind, hfield⟩ := h.exists_find? hkey hrules
  have hvalue : Respelled (.arr (rules.map Rule.toJson)) value := hfield.respelled fun _ => hname
  obtain ⟨documents, rfl, hdocuments⟩ := hvalue.of_arr
  have hloaded : List.Forall₂ (fun d r => Rule.load legacy d = .ok r) documents rules :=
    ((List.forall₂_map_left_iff.mp hdocuments).imp fun r d hd => Rule.load_respelled legacy hd).flip
  unfold loadSide
  rw [hfind]
  exact mapM_eq_ok.mpr hloaded

/-- A rule set is loaded from any spelling. -/
theorem load_respelled (rules : RuleSet) (legacy : Bool) {d : Json} (h : Respelled rules.toJson d) :
    RuleSet.load legacy d = .ok rules := by
  have hdistinct : DistinctKeys rules.toJson.fields := by
    show (["buyRules", "sellRules"].map firstSpelling).Nodup
    decide +kernel
  obtain ⟨reordered, rfl, hstored⟩ := Respelled.exists_stored h hdistinct
  rw [RuleSet.load, loadSide_respelled legacy (by decide) (by decide) hstored rfl,
    loadSide_respelled legacy (by decide) (by decide) hstored rfl]
  rfl

end RuleSet

/-- A tree is loaded from any spelling. -/
theorem Group.load_respelled (g : Group) (legacy : Bool) {d : Json} (h : Respelled g.toJson d) :
    Group.load legacy d = .ok g := by
  unfold Group.load
  rw [upgradeIf_respelled legacy h]
  show (Group.ofJson d).toLoad .tree = _
  rw [g.ofJson_respelled h]
  rfl

/-- **Stored strategies survive every spelling.** A rule set is loaded as it was stored, and so is a tree, from
any document that differs from the stored one in the spelling of keys, the older names of crossings and the order
of fields, with an upgrade and without. -/
theorem load_any_spelling (legacy : Bool) (document : Json) :
    (∀ rules : RuleSet, Respelled rules.toJson document → RuleSet.load legacy document = .ok rules) ∧
    (∀ g : Group, Respelled g.toJson document → Group.load legacy document = .ok g) := by
  constructor
  · intro rules h
    exact rules.load_respelled legacy h
  · intro g h
    exact g.load_respelled legacy h

/-- A tree with a crossing and with bounds one of which is NaN. -/
def crossedTree : Group where
  logic := .or
  children := [
    .leaf (.cross { indicator := some 1, field := "fast", crossing := .below, target := some 2,
                    targetField := some "slow" }),
    .leaf (.threshold { comparison := .between, operand := .range (0.0 / 0.0) 1.0 })]

/-- The tree as an older document has it: the crossing is a comparison, some of its keys are in snake case, and
the combinator stands last. -/
def crossedDocument : Json :=
  .obj [("type", .str "GROUP"),
    ("conditions", .arr [
      .obj [("type", .str "CROSS"), ("indicator_ref", .int 1), ("field", .str "fast"), ("operator", .str "LT"),
        ("targetRef", .int 2), ("target_field", .str "slow"), ("index", .int 0), ("target_index", .int 0)],
      .obj [("type", .str "THRESHOLD"), ("indicator_ref", .null), ("field", .str ""), ("operator", .str "BETWEEN"),
        ("value", .arr [.float (0.0 / 0.0), .float 1.0]), ("index", .int 0)]]),
    ("logic", .str "OR")]

theorem respelled_crossedDocument : Respelled crossedTree.toJson crossedDocument := by
  have hcross : Respelled
      (Leaf.cross { indicator := some 1, field := "fast", crossing := .below, target := some 2,
                    targetField := some "slow" }).toJson
      (.obj [("type", .str "CROSS"), ("indicator_ref", .int 1), ("field", .str "fast"), ("operator", .str "LT"),
        ("targetRef", .int 2), ("target_field", .str "slow"), ("index", .int 0), ("target_index", .int 0)]) := by
    refine .obj ?_ (List.Perm.refl _)
    refine .field (.same _) (.same _) (.field (.snake .indicator (by decide)) (.same _)
      (.field (.same _) (.same _) (.older .below rfl ?_)))
    exact .field (.same _) (.same _) (.field (.snake .targetField (by decide)) (.same _)
      (.field (.same _) (.same _) (.field (.snake .targetIndex (by decide)) (.same _) .nil)))
  have hbounds : Respelled
      (Leaf.threshold { comparison := .between, operand := .range (0.0 / 0.0) 1.0 }).toJson
      (.obj [("type", .str "THRESHOLD"), ("indicator_ref", .null), ("field", .str ""),
        ("operator", .str "BETWEEN"), ("value", .arr [.float (0.0 / 0.0), .float 1.0]), ("index", .int 0)]) := by
    refine .obj ?_ (List.Perm.refl _)
    refine .field (.same _) (.same _) (.field (.snake .indicator (by decide)) (.same _) ?_)
    exact .field (.same _) (.same _) (.field (.same _) (.same _) (.field (.same _) (.same _)
      (.field (.same _) (.same _) .nil)))
  rw [Group.toJson_eq, Group.fields_toJson]
  refine .obj (.field (.same _) (.same _) (.field (.same _) (.same _) (.field (.same _) (.arr ?_) .nil)))
    (.cons _ (.swap _ _ []))
  exact .cons hcross (.cons hbounds .nil)

/-- A strategy that sells by this tree. -/
def crossedStrategy : RuleSet where
  selling := [{ number := 7, side := .sell, priority := 2, active := false, tree := crossedTree }]

/-- The strategy as an older document has it. -/
def crossedStrategyDocument : Json :=
  .obj [("sell_rules", .arr [
      .obj [("rule_no", .int 7), ("ruleType", .str "SELL"), ("priority", .int 2), ("is_active", .bool false),
        ("conditions", crossedDocument)]]),
    ("buyRules", .arr [])]

theorem respelled_crossedStrategyDocument : Respelled crossedStrategy.toJson crossedStrategyDocument := by
  have hrule : Respelled
      (Rule.toJson { number := 7, side := .sell, priority := 2, active := false, tree := crossedTree })
      (.obj [("rule_no", .int 7), ("ruleType", .str "SELL"), ("priority", .int 2), ("is_active", .bool false),
        ("conditions", crossedDocument)]) := by
    refine .obj (.field (.snake .number (by decide)) (.same _) (.field (.same _) (.same _) ?_)) (List.Perm.refl _)
    exact .field (.same _) (.same _) (.field (.snake .active (by decide)) (.same _)
      (.field (.same _) respelled_crossedDocument .nil))
  refine .obj (.field (.same _) (.same _) (.field (.snake .selling (by decide)) (.arr ?_) .nil)) (.swap _ _ [])
  exact .cons hrule .nil

/-- The older documents of the strategy and of its tree are loaded as what they are, with an upgrade and without. -/
theorem load_any_spelling_crossed :
    Respelled crossedStrategy.toJson crossedStrategyDocument ∧
      Respelled crossedTree.toJson crossedDocument ∧
      (∀ legacy, RuleSet.load legacy crossedStrategyDocument = .ok crossedStrategy) ∧
      ∀ legacy, Group.load legacy crossedDocument = .ok crossedTree := by
  refine ⟨respelled_crossedStrategyDocument, respelled_crossedDocument, ?_, ?_⟩
  · intro legacy
    exact (load_any_spelling legacy crossedStrategyDocument).1 crossedStrategy respelled_crossedStrategyDocument
  · intro legacy
    exact (load_any_spelling legacy crossedDocument).2 crossedTree respelled_crossedDocument

end TradingRules
