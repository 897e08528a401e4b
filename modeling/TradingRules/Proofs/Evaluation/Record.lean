import TradingRules.Evaluation.Trace

/-!
# `Proofs.Evaluation.Record` — stored records explain themselves

What a stored record holds is enough to find its outcome again: `Json.verdict` reads tags, operators and
numbers, never the outcomes that are stored beside them. On the stored form of any trace it comes to what the
recorded numbers compare to, `LeafTrace.recheck` for a leaf and the combination of the children for a group.

## Contents
* `Json.foldRecord` — a stored record and the records under it, folded;
* `Json.records`, `Json.verdict` — all of them in order; the outcome found again;
* `LeafTrace.recheck`, `LeafTrace.numbers` — what a leaf's record holds;
* `Trace.nodes`, `Trace.records_toJson` — the nodes of a trace and their stored records.
-/

namespace TradingRules

namespace Json

/-! ## Reading stored records -/

/-- The text in a field. -/
def text? (record : Json) (key : String) : Option String :=
  match record.field? key with
  | some (.str s) => some s
  | _ => none

/-- The number in a field; null and no field at all hold none. -/
def number? (record : Json) (key : String) : Option Float :=
  match record.field? key with
  | some (.float x) => some x
  | _ => none

/-- What the number of a record was compared with: its two bounds if it has any, or else its single target. -/
def operand? (record : Json) : Option Operand :=
  match record.field? "targetRange" with
  | some (.arr [.float a, .float b]) => some (.range a b)
  | _ => (record.number? "targetValue").map .scalar

/-- The outcome of a comparison, from its operator and its numbers. -/
def comparisonVerdict (record : Json) : Option Bool :=
  (record.text? "operator").bind Comparison.ofName? |>.map fun c =>
    c.test (record.number? "actualValue") record.operand?

/-- The outcome of a crossing, from its operator and its numbers. -/
def crossingVerdict (record : Json) : Option Bool :=
  (record.text? "operator").bind Crossing.ofName? |>.map fun c =>
    c.test (record.number? "prevValue") (record.number? "prevTargetValue") (record.number? "actualValue")
      (record.number? "targetValue")

/-- The outcome of a group, from its combinator and the outcomes of its children. -/
def groupVerdict (record : Json) (children : List (Option Bool)) : Option Bool := do
  let logic ← (record.text? "logic").bind Logic.ofName?
  let outcomes ← children.mapM id
  return logic.combine outcomes

/-- The outcome of a record by its tag, from those of the records under it. -/
def recordVerdict (record : Json) (children : List (Option Bool)) : Option Bool :=
  (record.text? "type").bind fun tag =>
    if tag = groupTag then record.groupVerdict children
    else (LeafKind.ofName? tag).bind fun
      | .cross => record.crossingVerdict
      | .threshold | .price | .position => record.comparisonVerdict

mutual

/-- Folds a stored record: what the records under it come to, in order, is at hand for the record itself. -/
def foldRecord {α : Type} (f : Json → List α → α) : Json → α
  | .obj fields => f (.obj fields) (foldConditions f fields)
  | .null => f .null []
  | .bool b => f (.bool b) []
  | .int n => f (.int n) []
  | .float x => f (.float x) []
  | .str s => f (.str s) []
  | .arr items => f (.arr items) []

/-- Folds the records under a record, which are the items of its field `conditions`. -/
def foldConditions {α : Type} (f : Json → List α → α) : List (String × Json) → List α
  | [] => []
  | (key, .arr items) :: fields => if key = "conditions" then foldAll f items else foldConditions f fields
  | _ :: fields => foldConditions f fields

/-- Folds several stored records. -/
def foldAll {α : Type} (f : Json → List α → α) : List Json → List α
  | [] => []
  | item :: items => foldRecord f item :: foldAll f items

end

/-- A stored record and all records under it, from the root down and from left to right. -/
def records (record : Json) : List Json := record.foldRecord fun record below => record :: below.flatten

/-- The outcome of a stored record, found again from its tags, operators and numbers. -/
def verdict (record : Json) : Option Bool := record.foldRecord recordVerdict

theorem foldAll_eq_map {α : Type} (f : Json → List α → α) (items : List Json) :
    foldAll f items = items.map (foldRecord f) := by
  induction items with
  | nil => rw [foldAll, List.map_nil]
  | cons item items ih => rw [foldAll, List.map_cons, ih]

/-- A record without such a field has no records under it. -/
theorem foldConditions_eq_nil {α : Type} {f : Json → List α → α} {fields : List (String × Json)}
    (h : "conditions" ∉ fields.map (·.1)) : foldConditions f fields = [] := by
  induction fields with
  | nil => rw [foldConditions]
  | cons field fields ih =>
      obtain ⟨key, value⟩ := field
      rw [List.map_cons, List.mem_cons, not_or] at h
      obtain ⟨hkey, hfields⟩ := h
      cases value with
      | arr items => rw [foldConditions, if_neg (Ne.symm hkey), ih hfields]
      | _ => exact ih hfields

section Fields

variable {record : Json} {key : String}

theorem text?_eq_some {s : String} (h : record.field? key = some (.str s)) : record.text? key = some s := by
  unfold text?
  rw [h]

theorem number?_eq {x : Option Float} (h : record.field? key = some (numberJson x)) :
    record.number? key = x := by
  unfold number?
  rw [h]
  cases x <;> rfl

theorem operand?_of_value {x : Option Float} (hrange : record.field? "targetRange" = none)
    (hvalue : record.field? "targetValue" = some (numberJson x)) : record.operand? = x.map .scalar := by
  unfold operand?
  rw [hrange, number?_eq hvalue]

theorem operand?_of_range {a b : Float} (h : record.field? "targetRange" = some (.arr [.float a, .float b])) :
    record.operand? = some (.range a b) := by
  unfold operand?
  rw [h]

theorem comparisonVerdict_eq {c : Comparison} {actual : Option Float} {operand : Option Operand}
    (hoperator : record.field? "operator" = some (.str c.name))
    (hactual : record.field? "actualValue" = some (numberJson actual)) (hoperand : record.operand? = operand) :
    record.comparisonVerdict = some (c.test actual operand) := by
  unfold comparisonVerdict
  rw [text?_eq_some hoperator, number?_eq hactual, hoperand, Option.bind_some, Comparison.ofName?_name]
  rfl

theorem crossingVerdict_eq {c : Crossing} {actual target previous previousTarget : Option Float}
    (hoperator : record.field? "operator" = some (.str c.name))
    (hactual : record.field? "actualValue" = some (numberJson actual))
    (htarget : record.field? "targetValue" = some (numberJson target))
    (hprevious : record.field? "prevValue" = some (numberJson previous))
    (hpreviousTarget : record.field? "prevTargetValue" = some (numberJson previousTarget)) :
    record.crossingVerdict = some (c.test previous previousTarget actual target) := by
  unfold crossingVerdict
  rw [text?_eq_some hoperator, number?_eq hactual, number?_eq htarget, number?_eq hprevious,
    number?_eq hpreviousTarget, Option.bind_some, Crossing.ofName?_name]
  rfl

theorem groupVerdict_eq {logic : Logic} {outcomes : List Bool}
    (hlogic : record.field? "logic" = some (.str logic.name)) :
    record.groupVerdict (outcomes.map some) = some (logic.combine outcomes) := by
  have houtcomes : (outcomes.map some).mapM id = some outcomes := by
    induction outcomes with
    | nil => rfl
    | cons outcome outcomes ih =>
        rw [List.map_cons, List.mapM_cons, ih]
        rfl
  unfold groupVerdict
  rw [text?_eq_some hlogic, Option.bind_some, Logic.ofName?_name, houtcomes]
  rfl

end Fields

end Json

/-! ## Stored leaves -/

/-- The keys under which a stored leaf has single numbers. -/
def numberKeys : List String := ["actualValue", "targetValue", "prevValue", "prevTargetValue"]

/-- What a bound bounds a number by, if by anything. -/
def Bound.operand? : Bound → Option Operand
  | .value x => x.map .scalar
  | .range a b => some (.range a b)

/-- The single number of a bound. -/
def Bound.number? : Bound → Option Float
  | .value x => x
  | .range _ _ => none

namespace LeafTrace

/-- The outcome of a leaf, from the numbers that were recorded. -/
def recheck : LeafTrace → Bool
  | .threshold _ _ _ c actual bound | .position _ _ c actual bound => c.test actual bound.operand?
  | .cross _ _ _ c actual target previous previousTarget => c.test previous previousTarget actual target
  | .price _ _ _ c _ actual target => c.test actual (target.map .scalar)

/-- The numbers that were recorded, each of which may be missing, without the bounds of a range. -/
def numbers : LeafTrace → List (Option Float)
  | .threshold _ _ _ _ actual bound | .position _ _ _ actual bound => [actual, bound.number?]
  | .cross _ _ _ _ actual target previous previousTarget => [actual, target, previous, previousTarget]
  | .price _ _ _ _ _ actual target => [actual, target]

theorem foldRecord_toJson {α : Type} (f : Json → List α → α) (l : LeafTrace) :
    l.toJson.foldRecord f = f l.toJson [] := by
  have hfields : ∃ fields, l.toJson = .obj fields ∧ "conditions" ∉ fields.map (·.1) := by
    cases l with
    | threshold _ _ _ _ _ bound | position _ _ _ _ bound =>
        refine ⟨_, rfl, ?_⟩
        -- a range adds a list to the record, but under a key of its own
        cases bound <;> simp [leafFields, Bound.fields]
    | cross _ _ _ _ _ _ _ _ | price _ _ _ _ _ _ _ => exact ⟨_, rfl, by simp [leafFields]⟩
  obtain ⟨fields, hjson, hkeys⟩ := hfields
  rw [hjson, Json.foldRecord, Json.foldConditions_eq_nil hkeys]

/-- The stored form of a leaf's record says whether the leaf passed. -/
theorem field?_passed (l : LeafTrace) : l.toJson.field? "passed" = some (.bool l.passed) := by
  cases l <;> rfl

/-- **A stored leaf comes to what its numbers compare to.** -/
theorem verdict_toJson (l : LeafTrace) : l.toJson.verdict = some l.recheck := by
  rw [Json.verdict, foldRecord_toJson]
  cases l with
  | threshold _ _ _ c actual bound | position _ _ c actual bound =>
      cases bound with
      | value x => exact Json.comparisonVerdict_eq rfl rfl (Json.operand?_of_value rfl rfl)
      | range a b => exact Json.comparisonVerdict_eq rfl rfl (Json.operand?_of_range rfl)
  | cross _ _ _ c actual target previous previousTarget => exact Json.crossingVerdict_eq rfl rfl rfl rfl rfl
  | price _ _ _ c _ actual target =>
      exact Json.comparisonVerdict_eq rfl rfl (Json.operand?_of_value rfl rfl)

/-- Under every key of a number a stored leaf has one of the numbers that were recorded, or nothing. -/
theorem field?_number (l : LeafTrace) : ∀ key ∈ numberKeys,
    l.toJson.field? key = none ∨ ∃ x ∈ l.numbers, l.toJson.field? key = some (numberJson x) := by
  simp only [numberKeys, List.forall_mem_cons]
  cases l with
  | threshold _ _ _ _ actual bound | position _ _ _ actual bound =>
      have hactual : actual ∈ [actual, bound.number?] := List.mem_cons_self
      have hbound : bound.number? ∈ [actual, bound.number?] := List.mem_cons_of_mem _ List.mem_cons_self
      cases bound with
      | value x => exact ⟨.inr ⟨_, hactual, rfl⟩, .inr ⟨_, hbound, rfl⟩, .inl rfl, .inl rfl, List.forall_mem_nil _⟩
      | range a b => exact ⟨.inr ⟨_, hactual, rfl⟩, .inr ⟨_, hbound, rfl⟩, .inl rfl, .inl rfl, List.forall_mem_nil _⟩
  | cross _ _ _ _ actual target previous previousTarget =>
      refine ⟨.inr ⟨actual, ?_, rfl⟩, .inr ⟨target, ?_, rfl⟩, .inr ⟨previous, ?_, rfl⟩,
        .inr ⟨previousTarget, ?_, rfl⟩, List.forall_mem_nil _⟩ <;> simp [numbers]
  | price _ _ _ _ _ actual target =>
      refine ⟨.inr ⟨actual, ?_, rfl⟩, .inr ⟨target, ?_, rfl⟩, .inl rfl, .inl rfl, List.forall_mem_nil _⟩ <;> simp [numbers]

end LeafTrace

/-! ## Stored trees -/

namespace Trace

/-- **Induction over traces.** -/
@[elab_as_elim, induction_eliminator]
theorem treeInduction {motive : Trace → Prop} (leaf : ∀ l, motive (.leaf l))
    (group : ∀ logic passed children, (∀ t ∈ children, motive t) → motive (.group logic passed children)) :
    ∀ t, motive t
  | .leaf l => leaf l
  | .group logic passed children => group logic passed children fun t _ => treeInduction leaf group t

mutual

/-- A trace and all traces under it, from the root down and from left to right. -/
def nodes : Trace → List Trace
  | .leaf l => [.leaf l]
  | .group logic passed children => .group logic passed children :: nodesAll children

/-- The nodes of several traces. -/
def nodesAll : List Trace → List Trace
  | [] => []
  | child :: children => child.nodes ++ nodesAll children

end

theorem nodesAll_eq_flatMap (ts : List Trace) : nodesAll ts = ts.flatMap nodes := by
  induction ts with
  | nil => rw [nodesAll, List.flatMap_nil]
  | cons t ts ih => rw [nodesAll, List.flatMap_cons, ih]

@[simp] theorem nodes_leaf (l : LeafTrace) : (Trace.leaf l).nodes = [.leaf l] := by rw [nodes]

@[simp] theorem nodes_group (logic : Logic) (passed : Bool) (children : List Trace) :
    (Trace.group logic passed children).nodes = .group logic passed children :: children.flatMap nodes := by
  rw [nodes, nodesAll_eq_flatMap]

/-- The root of a trace is one of its nodes. -/
theorem self_mem_nodes (t : Trace) : t ∈ t.nodes := by
  cases t with
  | leaf l => rw [nodes_leaf]; exact List.mem_cons_self
  | group logic passed children => rw [nodes_group]; exact List.mem_cons_self

theorem leavesAll_eq_flatMap (ts : List Trace) : leavesAll ts = ts.flatMap leaves := by
  induction ts with
  | nil => rw [leavesAll, List.flatMap_nil]
  | cons t ts ih => rw [leavesAll, List.flatMap_cons, ih]

@[simp] theorem leaves_leaf (l : LeafTrace) : (Trace.leaf l).leaves = [l] := by rw [leaves]

@[simp] theorem leaves_group (logic : Logic) (passed : Bool) (children : List Trace) :
    (Trace.group logic passed children).leaves = children.flatMap leaves := by
  rw [leaves, leavesAll_eq_flatMap]

theorem toJsonAll_eq_map (ts : List Trace) : toJsonAll ts = ts.map toJson := by
  induction ts with
  | nil => rw [toJsonAll, List.map_nil]
  | cons t ts ih => rw [toJsonAll, List.map_cons, ih]

theorem toJson_leaf (l : LeafTrace) : (Trace.leaf l).toJson = l.toJson := by rw [toJson]

theorem foldRecord_toJson_group {α : Type} (f : Json → List α → α) (logic : Logic) (passed : Bool)
    (children : List Trace) :
    (Trace.group logic passed children).toJson.foldRecord f
      = f (Trace.group logic passed children).toJson (children.map fun t => t.toJson.foldRecord f) := by
  rw [toJson, Json.foldRecord]
  show f _ (Json.foldAll f (toJsonAll children)) = _
  rw [toJsonAll_eq_map, Json.foldAll_eq_map, List.map_map]
  rfl

/-- **The nodes of a trace stand in its stored form**, in their order. -/
theorem records_toJson (t : Trace) : t.toJson.records = t.nodes.map toJson := by
  induction t with
  | leaf l =>
      rw [nodes_leaf, toJson_leaf, Json.records, LeafTrace.foldRecord_toJson]
      rfl
  | group logic passed children ih =>
      have hchildren : (children.map fun t => t.toJson.records) = children.map fun t => t.nodes.map toJson :=
        List.map_congr_left ih
      rw [nodes_group, List.map_cons, List.map_flatMap, List.flatMap_def, ← hchildren, Json.records,
        foldRecord_toJson_group]
      rfl

/-- A stored group comes to the combination of its children, if these come to their outcomes. -/
theorem verdict_toJson_group {logic : Logic} {passed : Bool} {children : List Trace}
    (h : ∀ t ∈ children, t.toJson.verdict = some t.passed) :
    (Trace.group logic passed children).toJson.verdict = some (logic.combine (children.map (·.passed))) := by
  have hchildren : (children.map fun t => t.toJson.verdict) = (children.map (·.passed)).map some := by
    rw [List.map_map]
    exact List.map_congr_left h
  rw [Json.verdict, foldRecord_toJson_group]
  show Json.recordVerdict _ (children.map fun t => t.toJson.verdict) = _
  rw [hchildren]
  exact Json.groupVerdict_eq rfl

/-- A stored group has no numbers of its own. -/
theorem field?_number_group {logic : Logic} {passed : Bool} {children : List Trace} :
    ∀ key ∈ numberKeys, (Trace.group logic passed children).toJson.field? key = none := by
  simp only [numberKeys, List.forall_mem_cons]
  exact ⟨rfl, rfl, rfl, rfl, List.forall_mem_nil _⟩

/-- The stored form of a trace says whether it passed. -/
theorem field?_passed (t : Trace) : t.toJson.field? "passed" = some (.bool t.passed) := by
  cases t with
  | leaf l => rw [toJson_leaf, l.field?_passed]; rfl
  | group logic passed children => rfl

end Trace

end TradingRules
