import TradingRules.Proofs.Evaluation.Locality

/-!
# `Proofs.Evaluation.Faults` — what makes an evaluation fail

A leaf asks for its readings one after the other, and a group evaluates all of its children, whatever the others
come to. So a tree fails exactly if one of the readings that its leaves ask for does
(`Condition.fails_evaluate_iff`). A reading fails for one of two reasons, both to be seen in the raw data: where
fields are expected there is something else than an object, or the field is an integer that no double is near.
Without a bar, an indicator, an entry or a name there is nothing to read, and nothing fails.

## Contents
* `Json.Unreadable` — raw data that a field cannot be read of;
* `Source`, `Leaf.sources` — the readings that a leaf asks for;
* `Source.Faulty`, `Source.fails_read_iff` — readings that fail;
* `Leaf.Faulty`, `Condition.Faulty` — leaves and trees with such readings, and that just these fail.
-/

namespace TradingRules

open Fallible

/-! ## Raw data -/

/-- A field cannot be read of a value: it is an integer that no double is near, or the value is no object. -/
def Json.Unreadable (name : String) : Json → Prop
  | .obj fields => ∃ n, fields.lookup name = some (.int n) ∧ Decimal.floatOfInt? n = none
  | _ => True

theorem Json.fails_reading_iff {value : Json} :
    Fails value.reading ↔ ∃ n, value = .int n ∧ Decimal.floatOfInt? n = none := by
  unfold reading
  rw [fails_map]
  cases value with
  | int n =>
      unfold number
      cases hfloat : Decimal.floatOfInt? n <;> simp [hfloat]
  | _ => simp [number]

theorem fails_fieldReading_iff {fields : List (String × Json)} {name : String} :
    Fails (fieldReading fields name) ↔ (Json.obj fields).Unreadable name := by
  simp only [fieldReading, Json.Unreadable, Json.fails_reading_iff]
  cases fields.lookup name <;> simp

/-! ## Readings -/

/-- A reading that a leaf asks for. -/
inductive Source where
  | indicator (ref : Option Int) (field : String) (offset : Int)
  | price (field : PriceField) (offset : Int)
  | metric (name : String)

/-- The readings that a leaf asks for, in order: a crossing those of both of its series, each on two bars. -/
def Leaf.sources : Leaf → List Source
  | .threshold t => [.indicator t.indicator t.field t.index.val]
  | .cross c =>
    [.indicator c.indicator c.field c.index.val, .indicator c.indicator c.field (c.index.val + 1),
     .indicator c.target (c.targetField.getD "") c.targetIndex.val,
     .indicator c.target (c.targetField.getD "") (c.targetIndex.val + 1)]
  | .price p => [.indicator p.indicator p.field p.index.val, .price p.price p.index.val]
  | .position p => [.metric p.field]

namespace Source

/-- A reading on the bars that can be seen. -/
def read (ctx : Context) : Source → Except ReadError (Option Float)
  | .indicator ref field offset => ctx.indicator ref field offset
  | .price field offset => ctx.price field offset
  | .metric name => ctx.metric name

/-- There is something to read, and it cannot be read: the entry of an indicator, unless it is null, a price that is
an integer no double is near, or the metrics of the position. -/
def Faulty (ctx : Context) : Source → Prop
  | .indicator ref field offset => field ≠ "" ∧ ∃ number bar entry, ref = some number ∧
      ctx.at? offset = some bar ∧ bar.indicators.lookup number = some entry ∧ entry ≠ .null ∧ entry.Unreadable field
  | .price field offset =>
    ∃ bar n, ctx.at? offset = some bar ∧ bar.price.given field = .int n ∧ Decimal.floatOfInt? n = none
  | .metric name => name ≠ "" ∧ ∃ bar, ctx.current = some bar ∧ bar.position.Unreadable name

end Source

theorem Snapshot.fails_indicator_iff {bar : Snapshot} {ref : Int} {field : String} :
    Fails (bar.indicator ref field) ↔
      ∃ entry, bar.indicators.lookup ref = some entry ∧ entry ≠ .null ∧ entry.Unreadable field := by
  unfold indicator
  cases bar.indicators.lookup ref with
  | none => simp
  | some entry =>
      cases entry with
      | obj fields => simp [fails_fieldReading_iff]
      | null => simp
      | _ => simp [Json.Unreadable]

theorem Snapshot.fails_metric_iff {bar : Snapshot} {name : String} :
    Fails (bar.metric name) ↔ bar.position.Unreadable name := by
  unfold metric
  cases bar.position with
  | obj fields => exact fails_fieldReading_iff
  | _ => simp [Json.Unreadable]

namespace Source

/-- **A reading fails exactly if the raw data has a fault there.** -/
theorem fails_read_iff (ctx : Context) (s : Source) : Fails (s.read ctx) ↔ s.Faulty ctx := by
  cases s with
  | indicator ref field offset =>
      simp only [read, Faulty, Context.indicator]
      cases ref with
      | none => simp
      | some number =>
          by_cases hfield : field = ""
          · simp [hfield]
          · cases ctx.at? offset with
            | none => simp
            | some bar => simp [hfield, Snapshot.fails_indicator_iff]
  | price field offset =>
      simp only [read, Faulty, Context.price, PriceBar.get]
      cases ctx.at? offset with
      | none => simp
      | some bar => simp [Json.fails_reading_iff]
  | metric name =>
      simp only [read, Faulty, Context.metric]
      cases ctx.current with
      | none => simp
      | some bar =>
          by_cases hname : name = ""
          · simp [hname]
          · simp [hname, Snapshot.fails_metric_iff]

end Source

/-! ## Leaves -/

/-- A leaf asks for a reading that fails. -/
def Leaf.Faulty (ctx : Context) (l : Leaf) : Prop := ∃ s ∈ l.sources, s.Faulty ctx

/-- **A leaf fails exactly if one of its readings does**, for none is left out because of another. -/
theorem Leaf.fails_evaluate_iff (ctx : Context) (l : Leaf) : Fails (l.evaluate ctx) ↔ l.Faulty ctx := by
  unfold Faulty
  simp only [← Source.fails_read_iff]
  cases l with
  | threshold t =>
      have hread : Fails (t.evaluate ctx) ↔ Fails (ctx.indicator t.indicator t.field t.index.val) := fails_bind_pure
      simpa [evaluate, sources, Source.read] using hread
  | cross c =>
      have hreads : Fails (c.evaluate ctx) ↔
          Fails (ctx.indicator c.indicator c.field c.index.val) ∨
          Fails (ctx.indicator c.indicator c.field (c.index.val + 1)) ∨
          Fails (ctx.indicator c.target (c.targetField.getD "") c.targetIndex.val) ∨
          Fails (ctx.indicator c.target (c.targetField.getD "") (c.targetIndex.val + 1)) :=
        fails_bind fun _ => fails_bind fun _ => fails_bind fun _ => fails_bind_pure
      simpa [evaluate, sources, Source.read] using hreads
  | price p =>
      have hreads : Fails (p.evaluate ctx) ↔
          Fails (ctx.indicator p.indicator p.field p.index.val) ∨ Fails (ctx.price p.price p.index.val) :=
        fails_bind fun _ => fails_bind_pure
      simpa [evaluate, sources, Source.read] using hreads
  | position p =>
      have hread : Fails (p.evaluate ctx) ↔ Fails (ctx.metric p.field) := fails_bind_pure
      simpa [evaluate, sources, Source.read] using hread

/-! ## Trees -/

namespace Condition

/-- Somewhere in a tree there is a leaf that fails. -/
def Faulty (ctx : Context) (c : Condition) : Prop := ∃ l ∈ c.leaves, l.Faulty ctx

/-- Several conditions fail exactly if one of them does. -/
theorem fails_evaluateAll_iff {ctx : Context} {cs : List Condition} :
    Fails (evaluateAll ctx cs) ↔ ∃ c ∈ cs, Fails (c.evaluate ctx) := by
  induction cs with
  | nil =>
      rw [evaluateAll]
      simp
  | cons c cs ih =>
      have hall : Fails (evaluateAll ctx (c :: cs)) ↔ Fails (c.evaluate ctx) ∨ Fails (evaluateAll ctx cs) := by
        rw [evaluateAll]
        exact fails_bind fun _ => fails_bind_pure
      simp only [hall, ih, List.mem_cons, exists_eq_or_imp]

/-- **A tree fails exactly if some leaf of it does**, wherever that stands and whatever the others come to. -/
theorem fails_evaluate_iff (ctx : Context) (c : Condition) : Fails (c.evaluate ctx) ↔ c.Faulty ctx := by
  unfold Faulty
  induction c with
  | leaf l =>
      rw [evaluate, fails_map, Leaf.fails_evaluate_iff, leaves_leaf]
      simp
  | group logic children ih =>
      rw [evaluate, fails_map, fails_evaluateAll_iff, leaves_group]
      constructor
      · rintro ⟨c, hc, hfails⟩
        obtain ⟨l, hl, hfaulty⟩ := (ih c hc).mp hfails
        exact ⟨l, List.mem_flatMap.mpr ⟨c, hc, hl⟩, hfaulty⟩
      · rintro ⟨l, hl, hfaulty⟩
        obtain ⟨c, hc, hl⟩ := List.mem_flatMap.mp hl
        exact ⟨c, hc, (ih c hc).mpr ⟨l, hl, hfaulty⟩⟩

end Condition

end TradingRules
