import TradingRules.Proofs.Condition.Complete
import TradingRules.Proofs.Editing.Monotone
import TradingRules.Proofs.Evaluation.Faithful
import TradingRules.Proofs.Rule.Priority

/-!
# `Proofs.Evaluation.Incomplete` — what the check finds can never pass

The check of a tree and its evaluation know nothing of each other. The check asks whether a leaf has the parts of
its kind; a context refuses to read without an indicator or a field, and it refuses an empty name before it looks
at the bar, so that an entry under the empty name is out of reach. Of a leaf that is missing a part one number is
therefore missing on every bar, and such a leaf fails whatever its comparison, like a group without children.

That a node fails on all data is passed on to the groups above it: to an AND group by any child, to an OR group
by all of its children together. `Condition.Futile` says so without an evaluation.

## Contents
* `Context.indicator_of_incomplete`, `Context.metric_empty` — readings that have no data;
* `Leaf.passed_of_incomplete` — an incomplete leaf fails;
* `Condition.Flagged` — the check has something to say about a node;
* `Condition.Futile` — a condition that fails whatever the data;
* `Group.flagged_never_pass` — nodes with a defect, and the trees around them.
-/

namespace TradingRules

open Fallible

/-! ## Readings without data -/

namespace Context

/-- Without an indicator or the name of a field nothing is read, whatever the bars hold. -/
theorem indicator_of_incomplete (ctx : Context) {ref : Option Int} {field : String}
    (h : ¬(ref ≠ none ∧ field ≠ "")) (offset : Int) : ctx.indicator ref field offset = .ok none := by
  cases ref with
  | none => rfl
  | some ref =>
      have hfield : field = "" := by
        by_contra hne
        exact h ⟨Option.some_ne_none ref, hne⟩
      subst hfield
      rfl

/-- No metric is read under the empty name, even if the position has an entry under it. -/
theorem metric_empty (ctx : Context) : ctx.metric "" = .ok none := by
  unfold metric
  cases ctx.current with
  | none => rfl
  | some bar => rfl

end Context

/-! ## Incomplete leaves -/

section Leaves

variable {ctx : Context} {t : LeafTrace}

theorem Crossing.test_eq_false_of_source (c : Crossing) (previousTarget target : Option Float) :
    c.test none previousTarget none target = false := rfl

theorem Crossing.test_eq_false_of_target (c : Crossing) (previous actual : Option Float) :
    c.test previous none actual none = false := by
  cases previous <;> rfl

theorem Threshold.passed_of_incomplete {r : Threshold} (h : ¬(Leaf.threshold r).Complete)
    (ht : r.evaluate ctx = .ok t) : t.passed = false := by
  obtain ⟨x, hx, ht⟩ := bind_eq_ok.mp ht
  rw [ctx.indicator_of_incomplete h] at hx
  cases hx
  cases pure_eq_ok.mp ht
  exact r.comparison.test_none_left (some r.operand)

theorem PriceTest.passed_of_incomplete {p : PriceTest} (h : ¬(Leaf.price p).Complete)
    (ht : p.evaluate ctx = .ok t) : t.passed = false := by
  obtain ⟨x, hx, ht⟩ := bind_eq_ok.mp ht
  rw [ctx.indicator_of_incomplete h] at hx
  cases hx
  obtain ⟨target, -, ht⟩ := bind_eq_ok.mp ht
  cases pure_eq_ok.mp ht
  exact p.comparison.test_none_left (target.map .scalar)

theorem PositionTest.passed_of_incomplete {p : PositionTest} (h : ¬(Leaf.position p).Complete)
    (ht : p.evaluate ctx = .ok t) : t.passed = false := by
  obtain ⟨x, hx, ht⟩ := bind_eq_ok.mp ht
  rw [show p.field = "" from not_not.mp h, ctx.metric_empty] at hx
  cases hx
  cases pure_eq_ok.mp ht
  exact p.comparison.test_none_left (some p.operand)

/-- A crossing that is incomplete has no source or no target on either bar. A target field that was never set is
read as the empty name. -/
theorem Cross.passed_of_incomplete {c : Cross} (h : ¬(Leaf.cross c).Complete) (ht : c.evaluate ctx = .ok t) :
    t.passed = false := by
  obtain ⟨x₁, x₂, x₃, x₄, hx₁, hx₂, hx₃, hx₄, rfl⟩ := Cross.evaluate_eq_ok.mp ht
  show c.crossing.test x₂ x₄ x₁ x₃ = false
  by_cases hsource : c.indicator ≠ none ∧ c.field ≠ ""
  · -- with the source in place it is the target that has a part missing
    have htarget : ¬(c.target ≠ none ∧ c.targetField.getD "" ≠ "") := by
      rintro ⟨href, hname⟩
      refine h ⟨hsource.1, hsource.2, href, ?_⟩
      cases hfield : c.targetField with
      | none =>
          rw [hfield] at hname
          exact absurd rfl hname
      | some name =>
          rw [hfield] at hname
          exact ⟨name, rfl, hname⟩
    rw [ctx.indicator_of_incomplete htarget] at hx₃ hx₄
    cases hx₃
    cases hx₄
    exact c.crossing.test_eq_false_of_target x₂ x₁
  · rw [ctx.indicator_of_incomplete hsource] at hx₁ hx₂
    cases hx₁
    cases hx₂
    exact c.crossing.test_eq_false_of_source x₄ x₃

/-- **A leaf that is missing a part fails** on all data. -/
theorem Leaf.passed_of_incomplete {l : Leaf} (h : ¬l.Complete) (ht : l.evaluate ctx = .ok t) : t.passed = false := by
  cases l with
  | threshold r => exact Threshold.passed_of_incomplete h ht
  | cross c => exact Cross.passed_of_incomplete h ht
  | price p => exact PriceTest.passed_of_incomplete h ht
  | position p => exact PositionTest.passed_of_incomplete h ht

end Leaves

/-! ## Conditions that fail on all data -/

namespace Condition

variable {c node : Condition} {ctx : Context}

/-- The check has something to say about the node itself, depth apart: it is a group without children, or a leaf
with a defect. -/
def Flagged : Condition → Prop
  | .leaf l => l.defects ≠ []
  | .group _ children => children = []

/-- A condition fails because of parts that are missing: the leaf itself is incomplete, one child of an AND group
fails for this reason, or all children of a group do, of which there may be none. -/
inductive Futile : Condition → Prop
  | leaf {l : Leaf} (h : ¬l.Complete) : Futile (.leaf l)
  | conjunct {children : List Condition} {child : Condition} (hmem : child ∈ children) (h : Futile child) :
      Futile (.group .and children)
  | all {logic : Logic} {children : List Condition} (h : ∀ child ∈ children, Futile child) :
      Futile (.group logic children)

theorem Flagged.futile (h : node.Flagged) : node.Futile := by
  cases node with
  | leaf l => exact .leaf fun hcomplete => h (l.defects_eq_nil_iff.mpr hcomplete)
  | group logic children =>
      obtain rfl : children = [] := h
      exact .all nofun

/-- A condition all of whose leaves have defects is futile; so is one that has no leaf. -/
theorem futile_of_leaves (h : ∀ l ∈ c.leaves, (Condition.leaf l).Flagged) : c.Futile := by
  induction c using treeInduction with
  | leaf l => exact (h l (by simp)).futile
  | group logic children ih => exact .all fun child hmem => ih child hmem fun l hl => h l (mem_leaves_group hmem hl)

/-- **A futile condition never passes**, by induction on the reason. -/
theorem Futile.passed_eq_false (h : c.Futile) {t : Trace} (ht : c.evaluate ctx = .ok t) : t.passed = false := by
  induction h generalizing t with
  | leaf h =>
      obtain ⟨s, hs, rfl⟩ := evaluate_leaf_eq_ok.mp ht
      exact Leaf.passed_of_incomplete h hs
  | conjunct hmem _ ih =>
      obtain ⟨traces, htraces, rfl⟩ := evaluate_group_eq_ok.mp ht
      -- the trace of the child is among those that the group combines
      obtain ⟨s, hs, hchild⟩ := exists_mem_of_forall₂ htraces hmem
      have hfails : s.passed = false := ih hchild
      refine Bool.eq_false_iff.mpr fun hpassed => ?_
      obtain ⟨-, hall⟩ := Logic.combine_and_iff.mp hpassed
      have hpasses : s.passed = true := hall _ (List.mem_map_of_mem hs)
      rw [hfails] at hpasses
      cases hpasses
  | all _ ih =>
      obtain ⟨traces, htraces, rfl⟩ := evaluate_group_eq_ok.mp ht
      have hfail : ∀ s ∈ traces, s.passed = false := forall_mem_of_forall₂ (forall₂_of_children ih htraces)
      refine Logic.combine_eq_false ?_
      intro x hx
      obtain ⟨s, hs, rfl⟩ := List.mem_map.mp hx
      exact hfail s hs

/-- An AND group is futile if one of its children is flagged. -/
theorem futile_of_conjunct {children : List Condition} {child : Condition} (hmem : child ∈ children)
    (h : child.Flagged) : (group .and children).Futile := .conjunct hmem h.futile

end Condition

/-! ## Trees -/

namespace Group

/-- A tree that is futile fails on all data, also where it cannot be evaluated. -/
theorem passed_traceOn_of_futile {root : Group} (h : root.toCondition.Futile) (ctx : Context) :
    (root.traceOn ctx).passed = false := by
  cases hroot : root.evaluate ctx with
  | error e =>
      rw [traceOn_of_error hroot]
      rfl
  | ok s =>
      rw [traceOn_of_ok hroot]
      exact h.passed_eq_false (toCondition_of_evaluate hroot)

/-- **What the check flags can never pass.** Where a tree is evaluated, each node of it has its trace at its own
path, and this has failed
* if the node is an empty group or a leaf with a defect;
* if it is an AND group with such a node among its children;
* if all leaves of it have defects, or it has none.

A tree that is like this at its root fails whatever the data, also where it cannot be evaluated. -/
theorem flagged_never_pass (root : Group) (ctx : Context) :
    (∀ s, root.evaluate ctx = .ok s → ∀ p node, root.get p = .ok node →
      ∃ t, node.evaluate ctx = .ok t ∧ s.toTrace.at? p = some t ∧
        (node.Flagged → t.passed = false) ∧
        (∀ children, node = .group .and children → ∀ child ∈ children, child.Flagged → t.passed = false) ∧
        ((∀ l ∈ node.leaves, l.defects ≠ []) → t.passed = false)) ∧
    (root.toCondition.Flagged → (root.traceOn ctx).passed = false) ∧
    (root.logic = .and → ∀ child ∈ root.children, child.Flagged → (root.traceOn ctx).passed = false) ∧
    ((∀ l ∈ root.toCondition.leaves, l.defects ≠ []) → (root.traceOn ctx).passed = false) := by
  refine ⟨?node, ?flagged, ?conjunct, ?leaves⟩
  case node =>
    intro s hs p node hnode
    obtain ⟨t, ht, hat⟩ := (get_eq_ok_iff.mp hnode).exists_at? (toCondition_of_evaluate hs)
    refine ⟨t, ht, hat, fun h => h.futile.passed_eq_false ht, ?_,
      fun h => (Condition.futile_of_leaves h).passed_eq_false ht⟩
    rintro children rfl child hmem h
    exact (Condition.futile_of_conjunct hmem h).passed_eq_false ht
  case flagged => exact fun h => passed_traceOn_of_futile h.futile ctx
  case conjunct =>
    intro hlogic child hmem h
    refine passed_traceOn_of_futile ?_ ctx
    rw [toCondition, hlogic]
    exact Condition.futile_of_conjunct hmem h
  case leaves => exact fun h => passed_traceOn_of_futile (Condition.futile_of_leaves h) ctx

/-- A threshold that passes, beside an OR group of a price and of leaves of the other kinds with a part missing,
and an empty group in it. -/
def unfinished : Group where
  children := [
    .leaf (.threshold { indicator := some 1, field := "value", operand := .scalar 70.0 }),
    .leaf (.threshold { indicator := some 1, operand := .scalar 70.0 }),
    .group .or [
      .leaf (.cross { indicator := some 1, field := "value", target := some 1 }),
      .leaf (.price { field := "value" }),
      .leaf (.position { operand := .scalar 0.0 }),
      .group .and []]]

/-- A bar that has an entry under the empty name wherever there are names. -/
def unnamedBar : Snapshot where
  indicators := [(1, .obj [("value", .float 75.0), ("", .float 75.0)])]
  price := { closing := .float 60.0 }
  position := .obj [("", .float 1.0)]

/-- On the bar the first threshold passes; the threshold without a field, the crossing without a target field and
the empty group fail, so does the OR group in which all leaves have a defect, and so does the tree. -/
theorem flagged_never_pass_unfinished :
    ∃ s, unfinished.evaluate (.ofBars [unnamedBar]) = .ok s ∧
      (s.toTrace.at? [.int 0]).map (·.passed) = some true ∧
      (∃ t, s.toTrace.at? [.int 1] = some t ∧ t.passed = false) ∧
      (∃ t, s.toTrace.at? [.int 2, .int 0] = some t ∧ t.passed = false) ∧
      (∃ t, s.toTrace.at? [.int 2, .int 3] = some t ∧ t.passed = false) ∧
      (∃ t, s.toTrace.at? [.int 2] = some t ∧ t.passed = false) ∧
      (unfinished.traceOn (.ofBars [unnamedBar])).passed = false := by
  obtain ⟨s, hs, hpasses⟩ := exists_ok_of_any (x := unfinished.evaluate (.ofBars [unnamedBar]))
    (p := fun s => (s.toTrace.at? [.int 0]).map (·.passed) == some true) (by decide +kernel)
  obtain ⟨hnode, -, hconjunct, -⟩ := flagged_never_pass unfinished (.ofBars [unnamedBar])
  refine ⟨s, hs, beq_iff_eq.mp hpasses, ?threshold, ?cross, ?empty, ?leaves, ?root⟩
  case threshold =>
    obtain ⟨t, -, hat, hflagged, -⟩ := hnode s hs [.int 1] _ rfl
    exact ⟨t, hat, hflagged (List.cons_ne_nil _ _)⟩
  case cross =>
    obtain ⟨t, -, hat, hflagged, -⟩ := hnode s hs [.int 2, .int 0] _ rfl
    exact ⟨t, hat, hflagged (List.cons_ne_nil _ _)⟩
  case empty =>
    obtain ⟨t, -, hat, hflagged, -⟩ := hnode s hs [.int 2, .int 3] _ rfl
    exact ⟨t, hat, hflagged rfl⟩
  case leaves =>
    obtain ⟨t, -, hat, -, -, hleaves⟩ := hnode s hs [.int 2] _ rfl
    exact ⟨t, hat, hleaves (by decide)⟩
  case root =>
    exact hconjunct rfl (.leaf (.threshold { indicator := some 1, operand := .scalar 70.0 }))
      (.tail _ (.head _)) (List.cons_ne_nil _ _)

end Group

end TradingRules
