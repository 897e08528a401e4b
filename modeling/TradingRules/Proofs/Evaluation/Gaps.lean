import TradingRules.Proofs.Evaluation.Locality
import TradingRules.Proofs.Evaluation.Record
import TradingRules.Proofs.Market.Rolling

/-!
# `Proofs.Evaluation.Gaps` — missing data can only make a condition fail

A comparison passes only on numbers, and a group only on children that pass: no node of a tree passes because
something is missing. So whatever passes still does where more can be read, as long as the numbers that could
be read stay what they are. A run of bars reads more when its gaps are filled and when it goes further back,
which is what a greater window does.

## Contents
* `Reads` — a number that was read is read again;
* `Context.ReadsInto` — all that one context reads, another reads as well;
* `Condition.KeepsPassing`, `Condition.keepsPassing_of_readsInto` — the nodes of a tree in two contexts;
* `Supplies`, `Supplies.pushAll` — runs of bars, and windows that they are pushed into;
* `Condition.missing_only_fails` — the whole of it.
-/

namespace TradingRules

open Fallible

/-! ## Comparisons -/

/-- What was read is a number that is read again, or it was missing. -/
def Reads (x y : Option Float) : Prop := ∀ number, x = some number → y = some number

theorem Comparison.test_mono (c : Comparison) {x y : Option Float} {p q : Option Operand} (hx : Reads x y)
    (hp : ∀ operand, p = some operand → q = some operand) (h : c.test x p = true) : c.test y q = true := by
  cases x with
  | none => cases h
  | some number =>
      cases p with
      | none => cases h
      | some operand =>
          rw [hx number rfl, hp operand rfl]
          exact h

theorem Crossing.test_mono (c : Crossing) {x₁ x₂ x₃ x₄ y₁ y₂ y₃ y₄ : Option Float} (h₁ : Reads x₁ y₁)
    (h₂ : Reads x₂ y₂) (h₃ : Reads x₃ y₃) (h₄ : Reads x₄ y₄) (h : c.test x₁ x₂ x₃ x₄ = true) :
    c.test y₁ y₂ y₃ y₄ = true := by
  unfold test at h
  split at h
  case h_2 => cases h
  case h_1 =>
    rw [h₁ _ rfl, h₂ _ rfl, h₃ _ rfl, h₄ _ rfl]
    exact h

/-- A group that passes still does when children that passed still do: one without children never passed. -/
theorem Logic.combine_mono (logic : Logic) {xs ys : List Bool}
    (h : List.Forall₂ (fun x y => x = true → y = true) xs ys) (hpassed : logic.combine xs = true) :
    logic.combine ys = true := by
  have hall : xs.all id = true → ys.all id = true := by
    clear hpassed
    induction h with
    | nil => exact id
    | cons hxy _ ih =>
        simp only [List.all_cons, id, Bool.and_eq_true]
        exact And.imp hxy ih
  have hany : xs.any id = true → ys.any id = true := by
    clear hpassed hall
    induction h with
    | nil => exact id
    | cons hxy _ ih =>
        simp only [List.any_cons, id, Bool.or_eq_true]
        exact Or.imp hxy ih
  cases h with
  | nil => exact hpassed
  | cons =>
      cases logic with
      | and => exact hall hpassed
      | or => exact hany hpassed

/-! ## Contexts that read more -/

/-- Every indicator, price and metric that one context reads as a number, another reads as the same number. -/
structure Context.ReadsInto (a b : Context) : Prop where
  indicator : ∀ (ref : Option Int) (field : String) (n : Nat) (x : Float),
    a.indicator ref field n = .ok (some x) → b.indicator ref field n = .ok (some x)
  price : ∀ (field : PriceField) (n : Nat) (x : Float),
    a.price field n = .ok (some x) → b.price field n = .ok (some x)
  metric : ∀ (name : String) (x : Float), a.metric name = .ok (some x) → b.metric name = .ok (some x)

section Contexts

variable {a b : Context}

/-- Readings that succeeded are related as the contexts say. -/
theorem Context.ReadsInto.reads_indicator (h : a.ReadsInto b) {ref : Option Int} {field : String} {n : Nat}
    {x y : Option Float} (hx : a.indicator ref field n = .ok x) (hy : b.indicator ref field n = .ok y) :
    Reads x y := by
  rintro number rfl
  have hnumber := h.indicator ref field n number hx
  rw [hy] at hnumber
  exact Except.ok.inj hnumber

theorem Context.ReadsInto.reads_price (h : a.ReadsInto b) {field : PriceField} {n : Nat} {x y : Option Float}
    (hx : a.price field n = .ok x) (hy : b.price field n = .ok y) : Reads x y := by
  rintro number rfl
  have hnumber := h.price field n number hx
  rw [hy] at hnumber
  exact Except.ok.inj hnumber

theorem Context.ReadsInto.reads_metric (h : a.ReadsInto b) {name : String} {x y : Option Float}
    (hx : a.metric name = .ok x) (hy : b.metric name = .ok y) : Reads x y := by
  rintro number rfl
  have hnumber := h.metric name number hx
  rw [hy] at hnumber
  exact Except.ok.inj hnumber

variable {s t : LeafTrace}

theorem Threshold.passed_mono {r : Threshold} (h : a.ReadsInto b) (hs : r.evaluate a = .ok s)
    (ht : r.evaluate b = .ok t) : s.passed = true → t.passed = true := by
  obtain ⟨x, hx, hs⟩ := bind_eq_ok.mp hs
  obtain ⟨y, hy, ht⟩ := bind_eq_ok.mp ht
  cases pure_eq_ok.mp hs
  cases pure_eq_ok.mp ht
  exact r.comparison.test_mono (h.reads_indicator hx hy) fun _ => id

theorem Cross.passed_mono {c : Cross} (h : a.ReadsInto b) (hs : c.evaluate a = .ok s) (ht : c.evaluate b = .ok t) :
    s.passed = true → t.passed = true := by
  obtain ⟨x₁, x₂, x₃, x₄, hx₁, hx₂, hx₃, hx₄, rfl⟩ := Cross.evaluate_eq_ok.mp hs
  obtain ⟨y₁, y₂, y₃, y₄, hy₁, hy₂, hy₃, hy₄, rfl⟩ := Cross.evaluate_eq_ok.mp ht
  have hprevious : Reads x₂ y₂ := h.reads_indicator (n := c.index.val + 1) hx₂ hy₂
  have hpreviousTarget : Reads x₄ y₄ := h.reads_indicator (n := c.targetIndex.val + 1) hx₄ hy₄
  exact c.crossing.test_mono hprevious hpreviousTarget (h.reads_indicator hx₁ hy₁) (h.reads_indicator hx₃ hy₃)

theorem PriceTest.passed_mono {p : PriceTest} (h : a.ReadsInto b) (hs : p.evaluate a = .ok s)
    (ht : p.evaluate b = .ok t) : s.passed = true → t.passed = true := by
  obtain ⟨x, hx, hs⟩ := bind_eq_ok.mp hs
  obtain ⟨target, htarget, hs⟩ := bind_eq_ok.mp hs
  obtain ⟨y, hy, ht⟩ := bind_eq_ok.mp ht
  obtain ⟨target', htarget', ht⟩ := bind_eq_ok.mp ht
  cases pure_eq_ok.mp hs
  cases pure_eq_ok.mp ht
  refine p.comparison.test_mono (h.reads_indicator hx hy) ?_
  intro operand hoperand
  obtain ⟨price, rfl, rfl⟩ := Option.map_eq_some_iff.mp hoperand
  rw [h.reads_price htarget htarget' price rfl]
  rfl

theorem PositionTest.passed_mono {p : PositionTest} (h : a.ReadsInto b) (hs : p.evaluate a = .ok s)
    (ht : p.evaluate b = .ok t) : s.passed = true → t.passed = true := by
  obtain ⟨x, hx, hs⟩ := bind_eq_ok.mp hs
  obtain ⟨y, hy, ht⟩ := bind_eq_ok.mp ht
  cases pure_eq_ok.mp hs
  cases pure_eq_ok.mp ht
  exact p.comparison.test_mono (h.reads_metric hx hy) fun _ => id

/-- **A leaf that passes still does** in a context that reads more. -/
theorem Leaf.passed_mono {l : Leaf} (h : a.ReadsInto b) (hs : l.evaluate a = .ok s) (ht : l.evaluate b = .ok t) :
    s.passed = true → t.passed = true := by
  cases l with
  | threshold r => exact Threshold.passed_mono h hs ht
  | cross c => exact Cross.passed_mono h hs ht
  | price p => exact PriceTest.passed_mono h hs ht
  | position p => exact PositionTest.passed_mono h hs ht

end Contexts

/-! ## Trees -/

/-- Traces correspond node by node, and each node that passes in the first passes in the second. -/
def Trace.PassesInto (s t : Trace) : Prop :=
  List.Forall₂ (fun m n : Trace => m.passed = true → n.passed = true) s.nodes t.nodes

namespace Condition

/-- Where a tree can be evaluated in two contexts, it passes in the second if it does in the first, and so does
every node of it. -/
def KeepsPassing (c : Condition) (a b : Context) : Prop :=
  ∀ s t, c.evaluate a = .ok s → c.evaluate b = .ok t → (s.passed = true → t.passed = true) ∧ s.PassesInto t

/-- What is the same tree in two evaluations relates their traces child by child. -/
theorem forall₂_of_evaluations {a b : Context} {R : Trace → Trace → Prop} {children : List Condition}
    {ss ts : List Trace} (hs : List.Forall₂ (fun c s => c.evaluate a = .ok s) children ss)
    (ht : List.Forall₂ (fun c t => c.evaluate b = .ok t) children ts)
    (hR : ∀ c ∈ children, ∀ s t, c.evaluate a = .ok s → c.evaluate b = .ok t → R s t) :
    List.Forall₂ R ss ts := by
  induction hs generalizing ts with
  | nil =>
      cases ht
      exact .nil
  | cons hs _ ih =>
      cases ht with
      | cons ht hts =>
          refine .cons (hR _ List.mem_cons_self _ _ hs ht) (ih hts ?_)
          intro c hc
          exact hR c (List.mem_cons_of_mem _ hc)

/-- **A tree that passes still does** in a context that reads more, and every node of it. -/
theorem keepsPassing_of_readsInto (c : Condition) {a b : Context} (h : a.ReadsInto b) : c.KeepsPassing a b := by
  induction c with
  | leaf l =>
      intro s t hs ht
      obtain ⟨record, hrecord, rfl⟩ := evaluate_leaf_eq_ok.mp hs
      obtain ⟨record', hrecord', rfl⟩ := evaluate_leaf_eq_ok.mp ht
      have hpassed : record.passed = true → record'.passed = true := Leaf.passed_mono h hrecord hrecord'
      refine ⟨hpassed, ?_⟩
      unfold Trace.PassesInto
      rw [Trace.nodes_leaf, Trace.nodes_leaf]
      exact .cons hpassed .nil
  | group logic children ih =>
      intro s t hs ht
      obtain ⟨ss, hss, rfl⟩ := evaluate_group_eq_ok.mp hs
      obtain ⟨ts, hts, rfl⟩ := evaluate_group_eq_ok.mp ht
      have hchildren := forall₂_of_evaluations hss hts ih
      have hpassed : logic.combine (ss.map (·.passed)) = true → logic.combine (ts.map (·.passed)) = true := by
        refine logic.combine_mono ?_
        rw [List.forall₂_map_left_iff, List.forall₂_map_right_iff]
        exact hchildren.imp fun _ _ hchild => hchild.1
      refine ⟨hpassed, ?_⟩
      show List.Forall₂ _ (Trace.group logic _ ss).nodes (Trace.group logic _ ts).nodes
      rw [Trace.nodes_group, Trace.nodes_group, List.flatMap_def, List.flatMap_def]
      refine .cons hpassed (List.rel_flatten ?_)
      rw [List.forall₂_map_left_iff, List.forall₂_map_right_iff]
      exact hchildren.imp fun _ _ hchild => hchild.2

end Condition

/-! ## Runs of bars that supply more -/

/-- Every indicator, price and metric that one bar reads as a number, another reads as the same number. -/
structure Snapshot.ReadsInto (s t : Snapshot) : Prop where
  indicator : ∀ (ref : Int) (field : String) (x : Float),
    s.indicator ref field = .ok (some x) → t.indicator ref field = .ok (some x)
  price : ∀ (field : PriceField) (x : Float),
    s.price.get field = .ok (some x) → t.price.get field = .ok (some x)
  metric : ∀ (name : String) (x : Float), s.metric name = .ok (some x) → t.metric name = .ok (some x)

theorem Snapshot.ReadsInto.refl (s : Snapshot) : s.ReadsInto s := ⟨fun _ _ _ => id, fun _ _ => id, fun _ _ => id⟩

/-- A gap that is filled: an indicator without an entry is given one. -/
theorem Snapshot.readsInto_of_lookup_eq_none {s : Snapshot} {ref : Int} (hgap : s.indicators.lookup ref = none)
    (entry : Json) : s.ReadsInto { s with indicators := (ref, entry) :: s.indicators } where
  indicator := by
    intro other field x hx
    unfold Snapshot.indicator at hx ⊢
    by_cases hother : other = ref
    · rw [hother, hgap] at hx
      cases hx
    · rwa [List.lookup_cons, beq_false_of_ne hother]
  price := fun _ _ => id
  metric := fun _ _ => id

/-- One run of bars, the current one first, supplies all that another does: it goes back as far at least, and
its bars read as much. -/
def Supplies (more fewer : List Snapshot) : Prop :=
  ∀ (n : Nat) (s : Snapshot), fewer[n]? = some s → ∃ t, more[n]? = some t ∧ s.ReadsInto t

namespace Supplies

variable {more fewer : List Snapshot}

/-- A run of bars supplies what the same run does with gaps, and what it does when it begins later. -/
theorem append_of_forall₂ {bars filled : List Snapshot} (h : List.Forall₂ Snapshot.ReadsInto bars filled)
    (older : List Snapshot) : Supplies (filled ++ older) bars := by
  intro n s hs
  obtain ⟨hn, rfl⟩ := List.getElem?_eq_some_iff.mp hs
  have hn' : n < filled.length := h.length_eq ▸ hn
  refine ⟨filled[n], ?_, List.Forall₂.get h hn hn'⟩
  rw [List.getElem?_append_left hn', List.getElem?_eq_getElem hn']

theorem cons {s t : Snapshot} (hbar : s.ReadsInto t) (h : Supplies more fewer) :
    Supplies (t :: more) (s :: fewer) := by
  intro n other hother
  cases n with
  | zero =>
      cases hother
      exact ⟨t, rfl, hbar⟩
  | succ n => exact h n other hother

theorem take {k m : Nat} (hkm : k ≤ m) (h : Supplies more fewer) : Supplies (more.take m) (fewer.take k) := by
  intro n s hs
  rw [List.getElem?_take] at hs
  split at hs
  case isFalse => cases hs
  case isTrue hn =>
    obtain ⟨t, ht, hread⟩ := h n s hs
    exact ⟨t, by rw [List.getElem?_take_of_lt (Nat.lt_of_lt_of_le hn hkm), ht], hread⟩

/-- A greater window still supplies more after a bar. -/
theorem push {w v : Window} (hcapacity : w.capacity ≤ v.capacity) {s t : Snapshot} (hbar : s.ReadsInto t)
    (h : Supplies v.recent w.recent) : Supplies (v.push t).recent (w.push s).recent := by
  rw [Window.recent_push, Window.recent_push]
  exact (h.cons hbar).take hcapacity

/-- **A greater window supplies more**, whatever is pushed. -/
theorem pushAll {w v : Window} (hcapacity : w.capacity ≤ v.capacity) {bars filled : List Snapshot}
    (hbars : List.Forall₂ Snapshot.ReadsInto bars filled) (h : Supplies v.recent w.recent) :
    Supplies (v.pushAll filled).recent (w.pushAll bars).recent := by
  induction hbars generalizing w v with
  | nil => exact h
  | @cons s t _ _ hbar _ ih =>
      rw [Window.pushAll_cons, Window.pushAll_cons]
      exact ih (by rwa [Window.capacity_push, Window.capacity_push]) (h.push hcapacity hbar)

/-- A context reads all that it is supplied with. -/
theorem readsInto (h : Supplies more fewer) : Context.ReadsInto ⟨fewer⟩ ⟨more⟩ where
  indicator := by
    intro ref field n x hx
    unfold Context.indicator at hx ⊢
    cases ref with
    | none => exact hx
    | some ref =>
        dsimp only at hx ⊢
        split at hx
        case isTrue => cases hx
        case isFalse hfield =>
          rw [if_neg hfield]
          split at hx
          case h_1 => cases hx
          case h_2 s hs =>
            obtain ⟨t, ht, hread⟩ := h n s hs
            have hbar : Context.at? ⟨more⟩ n = some t := ht
            rw [hbar]
            exact hread.indicator ref field x hx
  price := by
    intro field n x hx
    unfold Context.price at hx ⊢
    split at hx
    case h_1 => cases hx
    case h_2 s hs =>
      obtain ⟨t, ht, hread⟩ := h n s hs
      have hbar : Context.at? ⟨more⟩ n = some t := ht
      rw [hbar]
      exact hread.price field x hx
  metric := by
    intro name x hx
    unfold Context.metric at hx ⊢
    split at hx
    case h_1 => cases hx
    case h_2 s hs =>
      obtain ⟨t, ht, hread⟩ := h 0 s hs
      have hbar : Context.current ⟨more⟩ = some t := ht
      rw [hbar]
      dsimp only
      split at hx
      case isTrue => cases hx
      case isFalse hname =>
        rw [if_neg hname]
        exact hread.metric name x hx

end Supplies

/-! ## Missing data -/

/-- **Missing data can only make a tree fail.** Where a tree can be evaluated in two contexts and the second
reads every number that the first reads, the tree passes in the second if it passes in the first, and so does
every node of its trace. In particular this is so when gaps of a run of bars are filled and older bars are added
in front of it, and when such bars are pushed into a window that is greater and holds more already. -/
theorem Condition.missing_only_fails (c : Condition) :
    (∀ a b : Context, a.ReadsInto b → c.KeepsPassing a b) ∧
    (∀ bars filled older : List Snapshot, List.Forall₂ Snapshot.ReadsInto bars filled →
      c.KeepsPassing (.ofBars bars) (.ofBars (older ++ filled))) ∧
    (∀ (w v : Window) (bars filled : List Snapshot), w.capacity ≤ v.capacity → Supplies v.recent w.recent →
      List.Forall₂ Snapshot.ReadsInto bars filled →
      c.KeepsPassing (w.pushAll bars).context (v.pushAll filled).context) := by
  refine ⟨fun a b h => c.keepsPassing_of_readsInto h, ?_, ?_⟩
  · intro bars filled older hbars
    refine c.keepsPassing_of_readsInto ?_
    unfold Context.ofBars
    rw [List.reverse_append]
    exact (Supplies.append_of_forall₂ (List.forall₂_reverse_iff.mpr hbars) older.reverse).readsInto
  · intro w v bars filled hcapacity hrecent hbars
    exact c.keepsPassing_of_readsInto (hrecent.pushAll hcapacity hbars).readsInto

namespace Condition

/-- The first indicator is high, and it is higher than the second or than it was itself. -/
def highAndRising : Condition :=
  .group .and [
    .leaf (.threshold { indicator := some 1, field := "value", operand := .scalar 70.0 }),
    .group .or [
      .leaf (.cross { indicator := some 1, field := "value", target := some 2, targetField := some "value" }),
      .leaf (.price { indicator := some 1, field := "value", price := .closing })]]

/-- A bar without an entry of the second indicator. -/
def gappy : Snapshot where
  indicators := [(1, .obj [("value", .float 75.0)])]
  price := { closing := .float 60.0 }

/-- The bar before it, on which the second indicator is ahead. -/
def earlier : Snapshot where
  indicators := [(1, .obj [("value", .float 50.0)]), (2, .obj [("value", .float 55.0)])]

/-- With the gap filled and the bar before it in view, the crossing passes as well and nothing that passed
fails. -/
theorem missing_only_fails_gappy :
    ∃ s t, highAndRising.evaluate (.ofBars [gappy]) = .ok s ∧
      highAndRising.evaluate (.ofBars [earlier,
        { gappy with indicators := (2, .obj [("value", .float 58.0)]) :: gappy.indicators }]) = .ok t ∧
      s.nodes.map (·.passed) = [true, true, true, false, true] ∧
      t.nodes.map (·.passed) = [true, true, true, true, true] ∧ s.PassesInto t := by
  obtain ⟨s, hs, hpassed⟩ := exists_ok_of_any
    (x := highAndRising.evaluate (.ofBars [gappy]))
    (p := fun s => s.nodes.map (·.passed) == [true, true, true, false, true]) (by decide +kernel)
  obtain ⟨t, ht, hpassed'⟩ := exists_ok_of_any
    (x := highAndRising.evaluate (.ofBars [earlier,
      { gappy with indicators := (2, .obj [("value", .float 58.0)]) :: gappy.indicators }]))
    (p := fun t => t.nodes.map (·.passed) == [true, true, true, true, true]) (by decide +kernel)
  have hfill : gappy.ReadsInto
      { gappy with indicators := (2, .obj [("value", .float 58.0)]) :: gappy.indicators } :=
    Snapshot.readsInto_of_lookup_eq_none rfl _
  obtain ⟨-, hbars, -⟩ := missing_only_fails highAndRising
  exact ⟨s, t, hs, ht, beq_iff_eq.mp hpassed, beq_iff_eq.mp hpassed',
    (hbars [gappy] _ [earlier] (.cons hfill .nil) s t hs ht).2⟩

end Condition

end TradingRules
