import TradingRules.Condition.Decode
import TradingRules.Proofs.Evaluation.Faults
import TradingRules.Proofs.Market.Order

/-!
# `Proofs.Evaluation.Range` — tests of a range

A range is tested against two bounds that may be given in either order, and the smaller of them is found by one
comparison, as is the greater. With numbers for bounds this is as it should be. With NaN among them no comparison
holds, the first bound is taken for the smaller one and for the greater, and then the order does matter: behind
NaN nothing lies in the range, but before NaN the first bound does, and it alone (`between_iff`). Bounds that are
NaN are read from stored documents like any other number.

## Contents
* `Within` — between two bounds, in one order or the other;
* `AtLoneBound` — at the first of two bounds, of which the second is NaN;
* `between_iff` — which numbers pass;
* `Leaf.TestsRange` — the leaves that test a range;
* `between_bounds` — ranges, ranges the other way round, and leaves that test them.
-/

namespace TradingRules

/-! ## Numbers and bounds -/

/-- A number lies from one bound to another, in one order or the other. -/
inductive Within (x : Float) : Float → Float → Prop
  | upward {a b : Float} (ha : a ≤ x) (hb : x ≤ b) : Within x a b
  | downward {a b : Float} (hb : b ≤ x) (ha : x ≤ a) : Within x a b

/-- The second bound is NaN, and the number is the first one. -/
def AtLoneBound (x a b : Float) : Prop := b.isNaN = true ∧ (x == a) = true

section Bounds

variable {x a b : Float}

theorem Within.symm (h : Within x a b) : Within x b a := by
  cases h with
  | upward ha hb => exact .downward ha hb
  | downward hb ha => exact .upward hb ha

/-- Bounds that a number lies between are numbers. -/
theorem Within.isNaN (h : Within x a b) : a.isNaN = false ∧ b.isNaN = false := by
  cases h with
  | upward ha hb => exact ⟨(isNaN_of_le ha).1, (isNaN_of_le hb).2⟩
  | downward hb ha => exact ⟨(isNaN_of_le ha).2, (isNaN_of_le hb).1⟩

/-- Between numbers the smaller bound is below and the greater one above, whichever comes first. -/
theorem between_iff_of_numbers (ha : a.isNaN = false) (hb : b.isNaN = false) :
    between x a b = true ↔ Within x a b := by
  unfold between lesser greater
  rw [Bool.and_eq_true, decide_eq_true_iff, decide_eq_true_iff]
  by_cases hba : b < a
  · have hab : ¬a < b := fun hab => number_not_le_of_lt hab (number_le_of_lt hba)
    rw [if_pos hba, if_neg hab]
    constructor
    · rintro ⟨hlow, hhigh⟩
      exact .downward hlow hhigh
    · intro h
      cases h with
      | downward hlow hhigh => exact ⟨hlow, hhigh⟩
      -- nothing lies upward of the greater bound and below the smaller one
      | upward hlow hhigh => exact absurd (number_le_trans hlow hhigh) (number_not_le_of_lt hba)
  · have hle : a ≤ b := number_le_of_not_lt hb ha hba
    have hgreater : x ≤ (if a < b then b else a) ↔ x ≤ b := by
      by_cases hab : a < b
      · rw [if_pos hab]
      · rw [if_neg hab]
        exact ⟨fun h => number_le_trans h hle, fun h => number_le_trans h (number_le_of_not_lt ha hb hab)⟩
    rw [if_neg hba, hgreater]
    constructor
    · rintro ⟨hlow, hhigh⟩
      exact .upward hlow hhigh
    · intro h
      cases h with
      | upward hlow hhigh => exact ⟨hlow, hhigh⟩
      | downward hlow hhigh => exact ⟨number_le_trans hle hlow, number_le_trans hhigh hle⟩

/-- Two comparisons in both directions make an equality. -/
theorem le_and_le_iff_beq : a ≤ x ∧ x ≤ a ↔ (x == a) = true := by
  by_cases hnan : x.isNaN = true ∨ a.isNaN = true
  · rw [beq_of_isNaN hnan]
    exact iff_of_false (fun h => not_le_of_isNaN hnan h.2) Bool.false_ne_true
  · obtain ⟨hx, ha⟩ := not_or.mp hnan
    have hx : x.isNaN = false := Bool.eq_false_iff.mpr hx
    have ha : a.isNaN = false := Bool.eq_false_iff.mpr ha
    rw [le_iff_rank ha hx, le_iff_rank hx ha, beq_iff_rank hx ha]
    exact ⟨fun h => le_antisymm h.2 h.1, fun h => ⟨h.ge, h.le⟩⟩

/-- No comparison holds with NaN, so the first bound is taken for both. -/
theorem between_of_isNaN (h : a.isNaN = true ∨ b.isNaN = true) : between x a b = true ↔ (x == a) = true := by
  unfold between lesser greater
  rw [if_neg (not_lt_of_isNaN h.symm), if_neg (not_lt_of_isNaN h), Bool.and_eq_true, decide_eq_true_iff,
    decide_eq_true_iff]
  exact le_and_le_iff_beq

/-- Behind NaN nothing lies in a range. -/
theorem between_eq_false_of_isNaN (ha : a.isNaN = true) : between x a b = false := by
  refine Bool.eq_false_iff.mpr fun h => ?_
  have heq : (x == a) = true := (between_of_isNaN (.inl ha)).mp h
  rw [beq_of_isNaN (.inr ha)] at heq
  cases heq

/-- **A range holds the numbers from the smaller bound to the greater.** Before NaN it holds the first bound as
well. -/
theorem between_iff : between x a b = true ↔ Within x a b ∨ AtLoneBound x a b := by
  by_cases hb : b.isNaN = true
  · have hoff : ¬Within x a b := fun h => Bool.eq_false_iff.mp h.isNaN.2 hb
    rw [between_of_isNaN (.inr hb), or_iff_right hoff]
    exact ⟨fun h => ⟨hb, h⟩, And.right⟩
  · have hoff : ¬AtLoneBound x a b := fun h => hb h.1
    rw [or_iff_left hoff]
    by_cases ha : a.isNaN = true
    · rw [between_eq_false_of_isNaN ha]
      exact iff_of_false Bool.false_ne_true fun h => Bool.eq_false_iff.mp h.isNaN.1 ha
    · exact between_iff_of_numbers (Bool.eq_false_iff.mpr ha) (Bool.eq_false_iff.mpr hb)

/-- A number at a lone bound passes, and with the bounds the other way round it does not. -/
theorem AtLoneBound.between_ne (h : AtLoneBound x a b) : between x a b ≠ between x b a := by
  rw [between_iff.mpr (.inr h), between_eq_false_of_isNaN h.1]
  exact Bool.noConfusion

/-- **The order of the bounds matters** at a bound whose partner is NaN, and nowhere else. -/
theorem between_comm_iff : between x a b = between x b a ↔ ¬(AtLoneBound x a b ∨ AtLoneBound x b a) := by
  constructor
  · rintro h (hlone | hlone)
    · exact hlone.between_ne h
    · exact hlone.between_ne h.symm
  · intro h
    obtain ⟨hfirst, hsecond⟩ := not_or.mp h
    rw [Bool.eq_iff_iff, between_iff, between_iff, or_iff_left hfirst, or_iff_left hsecond]
    exact ⟨Within.symm, Within.symm⟩

end Bounds

/-! ## Readings -/

/-- A reading passes if it is there and the range holds it. -/
theorem test_between_iff {actual : Option Float} {a b : Float} :
    Comparison.between.test actual (some (.range a b)) = true ↔
      ∃ x, actual = some x ∧ (Within x a b ∨ AtLoneBound x a b) := by
  cases actual with
  | none => simp
  | some x =>
      rw [Comparison.test_some, Comparison.holds, between_iff]
      simp

theorem test_between_comm_iff {actual : Option Float} {a b : Float} :
    Comparison.between.test actual (some (.range a b)) = Comparison.between.test actual (some (.range b a)) ↔
      ¬∃ x, actual = some x ∧ (AtLoneBound x a b ∨ AtLoneBound x b a) := by
  cases actual with
  | none => simp
  | some x =>
      rw [Comparison.test_some, Comparison.test_some, Comparison.holds, Comparison.holds, between_comm_iff]
      simp

/-! ## Leaves -/

/-- A leaf tests whether a reading lies between two bounds. -/
inductive Leaf.TestsRange : Leaf → Source → Float → Float → Prop
  | threshold (indicator : Option Int) (field : String) (index : Offset) (a b : Float) :
      TestsRange (.threshold { indicator, field, comparison := .between, operand := .range a b, index })
        (.indicator indicator field index.val) a b
  | position (field : String) (a b : Float) :
      TestsRange (.position { field, comparison := .between, operand := .range a b }) (.metric field) a b

/-- Such a leaf comes to what its reading does. -/
theorem Leaf.TestsRange.passed_evaluate {l : Leaf} {s : Source} {a b : Float} (h : l.TestsRange s a b)
    (ctx : Context) :
    (l.evaluate ctx).map (·.passed) =
      (s.read ctx).map fun actual => Comparison.between.test actual (some (.range a b)) := by
  cases h with
  | threshold indicator field index =>
      show (Threshold.evaluate _ ctx).map _ = (ctx.indicator indicator field index.val).map _
      unfold Threshold.evaluate
      cases ctx.indicator indicator field index.val <;> rfl
  | position field =>
      show (PositionTest.evaluate _ ctx).map _ = (ctx.metric field).map _
      unfold PositionTest.evaluate
      cases ctx.metric field <;> rfl

/-- **Ranges and the order of their bounds.** A reading passes if it lies from the smaller bound to the greater, or
if it equals the first bound and the second is NaN. So a range and the range the other way round differ on a number
that equals one bound while the other is NaN, and on no other. What is so of readings is so of the leaves that test
them: a leaf passes where its reading does, the leaf with the bounds the other way round comes to the same on every
context but those, and behind NaN no leaf passes. -/
theorem between_bounds (a b : Float) :
    (∀ actual, Comparison.between.test actual (some (.range a b)) = true ↔
      ∃ x, actual = some x ∧ (Within x a b ∨ AtLoneBound x a b)) ∧
    (∀ actual, Comparison.between.test actual (some (.range a b)) =
        Comparison.between.test actual (some (.range b a)) ↔
      ¬∃ x, actual = some x ∧ (AtLoneBound x a b ∨ AtLoneBound x b a)) ∧
    ∀ (l l' : Leaf) (s : Source), l.TestsRange s a b → l'.TestsRange s b a → ∀ ctx,
      ((l.evaluate ctx).map (·.passed) = .ok true ↔
        ∃ x, s.read ctx = .ok (some x) ∧ (Within x a b ∨ AtLoneBound x a b)) ∧
      ((l.evaluate ctx).map (·.passed) = (l'.evaluate ctx).map (·.passed) ↔
        ¬∃ x, s.read ctx = .ok (some x) ∧ (AtLoneBound x a b ∨ AtLoneBound x b a)) ∧
      (a.isNaN = true → (l.evaluate ctx).map (·.passed) ≠ .ok true) := by
  refine ⟨fun actual => test_between_iff, fun actual => test_between_comm_iff, ?_⟩
  intro l l' s hl hl' ctx
  rw [hl.passed_evaluate, hl'.passed_evaluate]
  cases hread : s.read ctx with
  | error e => simp [Except.map]
  | ok actual =>
      simp only [Except.map, Except.ok.injEq]
      refine ⟨test_between_iff, test_between_comm_iff, ?_⟩
      intro ha hpassed
      have hpassed := Except.ok.inj hpassed
      obtain ⟨x, rfl, -⟩ := test_between_iff.mp hpassed
      rw [Comparison.test_some, Comparison.holds, between_eq_false_of_isNaN ha] at hpassed
      cases hpassed

/-- A threshold on a range. -/
def rangeTest (a b : Float) : Leaf :=
  .threshold { indicator := some 1, field := "value", comparison := .between, operand := .range a b }

/-- A threshold on a range as it may be stored. -/
def storedRange (a b : Json) : Json :=
  .obj [("type", .str "THRESHOLD"), ("indicatorRef", .int 1), ("field", .str "value"),
    ("operator", .str "BETWEEN"), ("value", .arr [a, b])]

/-- One bar, on which the indicator is five. -/
def atFive : Context := .ofBars [{ indicators := [(1, .obj [("value", .float 5.0)])] }]

/-- A stored range may end in NaN. On a bar where the indicator is five the range from five to NaN passes, and the
one from NaN to five does not; the one from ten to one passes like the one from one to ten. -/
theorem between_bounds_lone :
    Condition.ofJson (storedRange (.float 5.0) (.str "nan")) = .ok (.leaf (rangeTest 5.0 (0.0 / 0.0))) ∧
    ((rangeTest 5.0 (0.0 / 0.0)).evaluate atFive).map (·.passed) = .ok true ∧
    ((rangeTest (0.0 / 0.0) 5.0).evaluate atFive).map (·.passed) ≠ .ok true ∧
    ((rangeTest 10.0 1.0).evaluate atFive).map (·.passed) = .ok true ∧
    ((rangeTest 10.0 1.0).evaluate atFive).map (·.passed) = ((rangeTest 1.0 10.0).evaluate atFive).map (·.passed) := by
  have hfive : (Source.indicator (some 1) "value" 0).read atFive = .ok (some 5.0) := rfl
  have htests (a b : Float) : (rangeTest a b).TestsRange (.indicator (some 1) "value" 0) a b :=
    .threshold _ _ .current a b
  obtain ⟨-, -, hbefore⟩ := between_bounds 5.0 (0.0 / 0.0)
  obtain ⟨-, -, hbehind⟩ := between_bounds (0.0 / 0.0) 5.0
  obtain ⟨-, -, hnumbers⟩ := between_bounds 10.0 1.0
  obtain ⟨hlone, -⟩ := hbefore _ _ _ (htests _ _) (htests _ _) atFive
  obtain ⟨-, -, hfails⟩ := hbehind _ _ _ (htests _ _) (htests _ _) atFive
  obtain ⟨hwithin, hsame, -⟩ := hnumbers _ _ _ (htests _ _) (htests _ _) atFive
  refine ⟨by decide +kernel, ?_, hfails (by decide +kernel), ?_, ?_⟩
  · exact hlone.mpr ⟨5.0, hfive, .inr ⟨by decide +kernel, by decide +kernel⟩⟩
  · exact hwithin.mpr ⟨5.0, hfive, .inl (.downward (by decide +kernel) (by decide +kernel))⟩
  · refine hsame.mpr ?_
    rintro ⟨x, -, h | h⟩
    · exact absurd h.1 (by decide +kernel)
    · exact absurd h.1 (by decide +kernel)

/-- **A range is not always the range the other way round.** -/
theorem not_in_either_order :
    ¬∀ x a b : Float, Comparison.between.test (some x) (some (.range a b)) =
      Comparison.between.test (some x) (some (.range b a)) := by
  intro halways
  have hlone := halways 5.0 5.0 (0.0 / 0.0)
  rw [test_between_comm_iff] at hlone
  exact hlone ⟨5.0, rfl, .inl ⟨by decide +kernel, by decide +kernel⟩⟩

end TradingRules
