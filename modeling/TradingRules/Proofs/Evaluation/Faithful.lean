import TradingRules.Proofs.Evaluation.Locality
import TradingRules.Proofs.Evaluation.Record
import TradingRules.Proofs.Market.Missing

/-!
# `Proofs.Evaluation.Faithful` — traces are faithful and explain themselves

A tree that was evaluated has a trace of its own outline, with one record for every leaf, and every outcome in
the stored trace is what its record comes to without the data (`Condition.evaluate_faithful`). A leaf decides
on its raw operand but records a bound: `Comparison.test_bound` is why the two cannot disagree, not for an
operand of the wrong form and not for NaN.

## Contents
* `Outline` — the shape of a tree;
* `Comparison.test_bound`, `Operand.clean_bound` — the operand that is recorded;
* `Leaf.recheck_of_evaluate`, `Leaf.clean_of_evaluate` — records of leaves;
* `Trace.SelfExplaining`, `Condition.evaluate_faithful` — traces of trees.
-/

namespace TradingRules

open Fallible

/-! ## Outlines -/

/-- The shape of a tree: the kinds of its leaves and how its groups combine them. -/
inductive Outline where
  | leaf (kind : LeafKind)
  | group (logic : Logic) (children : List Outline)

namespace Condition

mutual

/-- The outline of a condition. -/
def outline : Condition → Outline
  | .leaf l => .leaf l.kind
  | .group logic children => .group logic (outlineAll children)

/-- The outlines of several conditions. -/
def outlineAll : List Condition → List Outline
  | [] => []
  | child :: children => child.outline :: outlineAll children

end

theorem outlineAll_eq_map (cs : List Condition) : outlineAll cs = cs.map outline := by
  induction cs with
  | nil => rw [outlineAll, List.map_nil]
  | cons c cs ih => rw [outlineAll, List.map_cons, ih]

end Condition

namespace Trace

mutual

/-- The outline of a trace. -/
def outline : Trace → Outline
  | .leaf l => .leaf l.kind
  | .group logic _ children => .group logic (outlineAll children)

/-- The outlines of several traces. -/
def outlineAll : List Trace → List Outline
  | [] => []
  | child :: children => child.outline :: outlineAll children

end

theorem outlineAll_eq_map (ts : List Trace) : outlineAll ts = ts.map outline := by
  induction ts with
  | nil => rw [outlineAll, List.map_nil]
  | cons t ts ih => rw [outlineAll, List.map_cons, ih]

end Trace

/-! ## What a leaf records -/

/-- A number compares with the operand as with what is recorded of it. -/
theorem Comparison.test_bound (c : Comparison) (x : Option Float) (operand : Operand) :
    c.test x (operand.bound c).operand? = c.test x (some operand) := by
  cases x with
  | none => rfl
  | some x =>
      cases operand with
      | range a b => cases c <;> rfl
      | scalar y =>
          by_cases hbetween : c = .between
          · subst hbetween
            rfl
          · have hbound : (Operand.scalar y).bound c = .value (present y) := by
              cases c <;> first | rfl | exact absurd rfl hbetween
            rw [hbound, test_some]
            unfold present
            split
            case isFalse => rfl
            -- NaN is recorded as missing, and the number did not compare with it either
            case isTrue hy => exact (c.holds_scalar_of_isNaN x hy).symm

theorem Operand.clean_bound (operand : Operand) (c : Comparison) : Clean (operand.bound c).number? := by
  cases operand with
  | range a b => cases c <;> exact clean_none
  | scalar x => cases c <;> first | exact clean_none | exact clean_present x

/-- What the record of a leaf promises: its outcome is that of its numbers, and none of these is NaN. -/
structure LeafTrace.Sound (t : LeafTrace) : Prop where
  recheck : t.recheck = t.passed
  clean : ∀ x ∈ t.numbers, Clean x

section Leaves

variable {ctx : Context} {t : LeafTrace}

theorem Threshold.sound_of_evaluate {r : Threshold} (h : r.evaluate ctx = .ok t) :
    t.kind = .threshold ∧ t.Sound := by
  obtain ⟨actual, hactual, h⟩ := bind_eq_ok.mp h
  cases pure_eq_ok.mp h
  refine ⟨rfl, r.comparison.test_bound actual r.operand, ?_⟩
  simp only [LeafTrace.numbers, List.forall_mem_cons]
  exact ⟨Context.clean_of_indicator hactual, r.operand.clean_bound r.comparison, List.forall_mem_nil _⟩

theorem Cross.sound_of_evaluate {c : Cross} (h : c.evaluate ctx = .ok t) : t.kind = .cross ∧ t.Sound := by
  obtain ⟨actual, previous, target, previousTarget, hactual, hprevious, htarget, hpreviousTarget, rfl⟩ :=
    Cross.evaluate_eq_ok.mp h
  refine ⟨rfl, rfl, ?_⟩
  simp only [LeafTrace.numbers, List.forall_mem_cons]
  exact ⟨Context.clean_of_indicator hactual, Context.clean_of_indicator htarget,
    Context.clean_of_indicator hprevious, Context.clean_of_indicator hpreviousTarget, List.forall_mem_nil _⟩

theorem PriceTest.sound_of_evaluate {p : PriceTest} (h : p.evaluate ctx = .ok t) :
    t.kind = .price ∧ t.Sound := by
  obtain ⟨actual, hactual, h⟩ := bind_eq_ok.mp h
  obtain ⟨target, htarget, h⟩ := bind_eq_ok.mp h
  cases pure_eq_ok.mp h
  refine ⟨rfl, rfl, ?_⟩
  simp only [LeafTrace.numbers, List.forall_mem_cons]
  exact ⟨Context.clean_of_indicator hactual, Context.clean_of_price htarget, List.forall_mem_nil _⟩

theorem PositionTest.sound_of_evaluate {p : PositionTest} (h : p.evaluate ctx = .ok t) :
    t.kind = .position ∧ t.Sound := by
  obtain ⟨actual, hactual, h⟩ := bind_eq_ok.mp h
  cases pure_eq_ok.mp h
  refine ⟨rfl, p.comparison.test_bound actual p.operand, ?_⟩
  simp only [LeafTrace.numbers, List.forall_mem_cons]
  exact ⟨Context.clean_of_metric hactual, p.operand.clean_bound p.comparison, List.forall_mem_nil _⟩

/-- **The record of a leaf is of its kind and sound.** -/
theorem Leaf.sound_of_evaluate {l : Leaf} (h : l.evaluate ctx = .ok t) : t.kind = l.kind ∧ t.Sound := by
  cases l with
  | threshold r => exact Threshold.sound_of_evaluate h
  | cross c => exact Cross.sound_of_evaluate h
  | price p => exact PriceTest.sound_of_evaluate h
  | position p => exact PositionTest.sound_of_evaluate h

end Leaves

/-! ## Traces of trees -/

/-- The stored form of a node says whether it passed, comes to the same without that, and holds no NaN under
a key of a single number. -/
structure Trace.SelfExplaining (node : Trace) : Prop where
  passed : node.toJson.field? "passed" = some (.bool node.passed)
  verdict : node.toJson.verdict = some node.passed
  clean : ∀ key ∈ numberKeys, ∀ x, node.toJson.field? key = some (.float x) → x.isNaN = false

theorem LeafTrace.Sound.selfExplaining {t : LeafTrace} (h : t.Sound) : (Trace.leaf t).SelfExplaining where
  passed := Trace.field?_passed _
  verdict := by
    rw [Trace.toJson_leaf, verdict_toJson, h.recheck]
    rfl
  clean := by
    intro key hkey x hx
    rw [Trace.toJson_leaf] at hx
    rcases t.field?_number key hkey with hnone | ⟨number, hnumber, hsome⟩
    · rw [hnone] at hx
      cases hx
    · rw [hsome] at hx
      cases number with
      | none => cases hx
      | some y =>
          cases hx
          exact h.clean _ hnumber x rfl

/-- A group explains itself if its children do. -/
theorem Trace.selfExplaining_group {logic : Logic} {children : List Trace}
    (h : ∀ t ∈ children, t.SelfExplaining) :
    (GroupTrace.ofChildren logic children).toTrace.SelfExplaining where
  passed := Trace.field?_passed _
  verdict := Trace.verdict_toJson_group fun t ht => (h t ht).verdict
  clean := by
    intro key hkey x hx
    have hnone : (GroupTrace.ofChildren logic children).toTrace.toJson.field? key = none :=
      Trace.field?_number_group key hkey
    rw [hnone] at hx
    cases hx

namespace Condition

variable {c : Condition} {ctx : Context} {trace : Trace}

/-- Traces of the children of a group have whatever every child's trace has. -/
theorem forall₂_of_children {R : Condition → Trace → Prop} {children : List Condition} {traces : List Trace}
    (ih : ∀ c ∈ children, ∀ {t}, c.evaluate ctx = .ok t → R c t)
    (h : List.Forall₂ (fun c t => c.evaluate ctx = .ok t) children traces) : List.Forall₂ R children traces :=
  ((List.forall₂_and_left children traces).mpr ⟨ih, h⟩).imp fun _ _ hchild => hchild.1 hchild.2

/-- A trace has the outline of its tree. -/
theorem outline_of_evaluate (h : c.evaluate ctx = .ok trace) : trace.outline = c.outline := by
  induction c generalizing trace with
  | leaf l =>
      obtain ⟨t, ht, rfl⟩ := evaluate_leaf_eq_ok.mp h
      rw [Trace.outline, outline, (Leaf.sound_of_evaluate ht).1]
  | group logic children ih =>
      obtain ⟨traces, htraces, rfl⟩ := evaluate_group_eq_ok.mp h
      have houtlines : traces.map Trace.outline = children.map outline := by
        rw [← List.forall₂_eq_eq_eq, List.forall₂_map_left_iff, List.forall₂_map_right_iff]
        exact (forall₂_of_children ih htraces).flip
      show Outline.group logic (Trace.outlineAll traces) = _
      rw [outline, Trace.outlineAll_eq_map, outlineAll_eq_map, houtlines]

/-- There is one record for every leaf, in the order of the leaves. -/
theorem leaves_of_evaluate (h : c.evaluate ctx = .ok trace) :
    List.Forall₂ (fun l t => l.evaluate ctx = .ok t) c.leaves trace.leaves := by
  induction c generalizing trace with
  | leaf l =>
      obtain ⟨t, ht, rfl⟩ := evaluate_leaf_eq_ok.mp h
      rw [leaves_leaf, Trace.leaves_leaf]
      exact .cons ht .nil
  | group logic children ih =>
      obtain ⟨traces, htraces, rfl⟩ := evaluate_group_eq_ok.mp h
      rw [leaves_group, List.flatMap_def]
      show List.Forall₂ _ _ (Trace.group logic _ traces).leaves
      rw [Trace.leaves_group, List.flatMap_def]
      refine List.rel_flatten ?_
      rw [List.forall₂_map_left_iff, List.forall₂_map_right_iff]
      exact forall₂_of_children ih htraces

/-- Every node of a trace explains itself. -/
theorem selfExplaining_of_evaluate (h : c.evaluate ctx = .ok trace) :
    ∀ node ∈ trace.nodes, node.SelfExplaining := by
  induction c generalizing trace with
  | leaf l =>
      obtain ⟨t, ht, rfl⟩ := evaluate_leaf_eq_ok.mp h
      rw [Trace.nodes_leaf, List.forall_mem_singleton]
      exact (Leaf.sound_of_evaluate ht).2.selfExplaining
  | group logic children ih =>
      obtain ⟨traces, htraces, rfl⟩ := evaluate_group_eq_ok.mp h
      have hnodes : ∀ t ∈ traces, ∀ node ∈ t.nodes, node.SelfExplaining :=
        forall_mem_of_forall₂ (forall₂_of_children ih htraces)
      show ∀ node ∈ (Trace.group logic _ traces).nodes, node.SelfExplaining
      rw [Trace.nodes_group, List.forall_mem_cons]
      constructor
      -- the group is judged by its children, which are nodes of their own traces
      · exact Trace.selfExplaining_group fun t ht => hnodes t ht t t.self_mem_nodes
      · intro node hnode
        obtain ⟨t, ht, hnode⟩ := List.mem_flatMap.mp hnode
        exact hnodes t ht node hnode

/-- **Traces are faithful and explain themselves.** A tree that is evaluated has a trace of its own outline,
with one record for every leaf, which is what the leaf comes to, in the order of the leaves. All nodes of the
trace stand in its stored form in their order, and there each says whether it passed, comes to the same from
operators and numbers alone, and holds no NaN. -/
theorem evaluate_faithful (h : c.evaluate ctx = .ok trace) :
    trace.outline = c.outline ∧
    List.Forall₂ (fun l t => t.kind = l.kind ∧ l.evaluate ctx = .ok t) c.leaves trace.leaves ∧
    trace.toJson.records = trace.nodes.map Trace.toJson ∧
    ∀ node ∈ trace.nodes, node.SelfExplaining := by
  refine ⟨outline_of_evaluate h, ?_, trace.records_toJson, selfExplaining_of_evaluate h⟩
  exact (leaves_of_evaluate h).imp fun l t ht => ⟨(Leaf.sound_of_evaluate ht).1, ht⟩

/-- Comparisons that are hard to record: with a range that ends in NaN, with NaN, of a price as a range, between
two bars, and none at all. -/
def awkward : Condition :=
  .group .or [
    .leaf (.threshold { indicator := some 1, field := "value", comparison := .between,
                        operand := .range 60.0 (0.0 / 0.0) }),
    .leaf (.threshold { indicator := some 1, field := "value", operand := .scalar (0.0 / 0.0) }),
    .leaf (.price { indicator := some 1, field := "value", comparison := .between }),
    .leaf (.cross { indicator := some 1, field := "value", target := some 2, targetField := some "value" }),
    .group .and []]

/-- A context of two bars on which the first indicator overtakes the second. -/
def overtaking : Context :=
  .ofBars [
    { indicators := [(1, .obj [("value", .float 50.0)]), (2, .obj [("value", .float 55.0)])] },
    { indicators := [(1, .obj [("value", .float 60.0)]), (2, .obj [("value", .float 58.0)])],
      price := { closing := .float 60.0 } }]

/-- The range that ends in NaN still has its other bound in it, and the stored trace tells that. -/
theorem evaluate_faithful_awkward :
    ∃ trace, awkward.evaluate overtaking = .ok trace ∧
      trace.leaves.map (·.passed) = [true, false, false, true] ∧
      trace.outline = awkward.outline ∧ trace.toJson.records = trace.nodes.map Trace.toJson ∧
      ∀ node ∈ trace.nodes, node.SelfExplaining := by
  obtain ⟨trace, htrace, hleaves⟩ := exists_ok_of_any
    (x := awkward.evaluate overtaking)
    (p := fun trace => trace.leaves.map (·.passed) == [true, false, false, true]) (by decide +kernel)
  obtain ⟨houtline, -, hrecords, hnodes⟩ := evaluate_faithful htrace
  exact ⟨trace, htrace, beq_iff_eq.mp hleaves, houtline, hrecords, hnodes⟩

end Condition

end TradingRules
