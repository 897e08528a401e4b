import Mathlib.Data.Prod.Lex
import Mathlib.Order.Bounds.Defs
import TradingRules.Proofs.Market.Missing

/-!
# `Proofs.Market.Order` — numbers in order

Doubles have no linear order: NaN compares with nothing, and the two zeros compare equal. But apart from NaN
every comparison is that of a rank, by sign, then exponent, then mantissa, and ranks are ordered linearly. What
is known of linear orders comes to doubles by this one way.

## Contents
* `rank` — where a double stands;
* `lt_iff_rank`, `le_iff_rank`, `beq_iff_rank` — comparisons of doubles as comparisons of ranks;
* `number_le_trans` and others — what every order has;
* `isGreatest_append` — the greatest of several numbers after one more.
-/

namespace TradingRules

open Float.Model

/-! ## Ranks -/

theorem compare_neg_neg (a b : ℤ) : compare (-a) (-b) = (compare a b).swap := by
  show compareOfLessAndEq _ _ = (compareOfLessAndEq _ _).swap
  unfold compareOfLessAndEq
  rcases lt_trichotomy a b with h | h | h
  · rw [if_neg (by omega), if_neg (by omega), if_pos h]
    rfl
  · rw [if_neg (by omega), if_pos (by omega), if_neg (by omega), if_pos h]
    rfl
  · rw [if_pos (by omega), if_neg (by omega), if_neg (by omega)]
    rfl

theorem compare_natCast (m n : ℕ) : compare (m : ℤ) (n : ℤ) = compare m n := by
  show compareOfLessAndEq _ _ = compareOfLessAndEq _ _
  unfold compareOfLessAndEq
  simp only [Int.ofNat_lt, Int.natCast_inj]

/-- Where a number stands among the others, first by its sign and whether it is infinite. Among negative
numbers a greater magnitude stands lower. NaN has no place; it is given that of the zeros. -/
def unpackedRank : UnpackedFloat → ℤ ×ₗ ℤ ×ₗ ℤ
  | .infinity .negative => toLex (-2, toLex (0, 0))
  | .finite .negative mantissa exponent _ => toLex (-1, toLex (-exponent, -mantissa))
  | .notANumber | .zero _ => toLex (0, toLex (0, 0))
  | .finite .positive mantissa exponent _ => toLex (1, toLex (exponent, mantissa))
  | .infinity .positive => toLex (2, toLex (0, 0))

/-- Apart from NaN numbers compare as their ranks do. -/
theorem compare_eq_compare_rank {a b : UnpackedFloat} (ha : a ≠ .notANumber) (hb : b ≠ .notANumber) :
    a.compare b = some (compare (unpackedRank a) (unpackedRank b)) := by
  cases a with
  | notANumber => exact absurd rfl ha
  | infinity s =>
      cases b with
      | notANumber => exact absurd rfl hb
      | infinity t | finite t _ _ _ => cases s <;> cases t <;> rfl
      | zero _ => cases s <;> rfl
  | zero _ =>
      cases b with
      | notANumber => exact absurd rfl hb
      | infinity t | finite t _ _ _ => cases t <;> rfl
      | zero _ => rfl
  | finite s m e _ =>
      cases b with
      | notANumber => exact absurd rfl hb
      | infinity t => cases s <;> cases t <;> rfl
      | zero _ => cases s <;> rfl
      | finite t n f _ =>
          cases s with
          | positive =>
              cases t with
              | negative => rfl
              | positive =>
                  show some ((compare e f).then (compare m n)) = some ((compare e f).then (compare (m : ℤ) n))
                  rw [compare_natCast]
          | negative =>
              cases t with
              | positive => rfl
              | negative =>
                  show some ((compare e f).then (compare m n)).swap
                    = some ((compare (-e) (-f)).then (compare (-(m : ℤ)) (-n)))
                  rw [Ordering.swap_then, compare_neg_neg, compare_neg_neg, compare_natCast]

/-- Where a double stands among the others. -/
def rank (x : Float) : ℤ ×ₗ ℤ ×ₗ ℤ := unpackedRank x.toModel.unpack

section Compare

variable {a b : Float}

theorem unpack_ne_of_isNaN (h : a.isNaN = false) : a.toModel.unpack ≠ .notANumber := by
  intro hunpack
  unfold Float.isNaN Float.Model.isNaN at h
  rw [hunpack] at h
  cases h

theorem compare_rank (ha : a.isNaN = false) (hb : b.isNaN = false) :
    a.toModel.unpack.compare b.toModel.unpack = some (compare (rank a) (rank b)) :=
  compare_eq_compare_rank (unpack_ne_of_isNaN ha) (unpack_ne_of_isNaN hb)

theorem lt_iff_rank (ha : a.isNaN = false) (hb : b.isNaN = false) : a < b ↔ rank a < rank b := by
  show decide ((a.toModel.unpack.compare b.toModel.unpack == some .lt) = true) = true ↔ _
  rw [compare_rank ha hb, decide_eq_true_iff, beq_iff_eq, Option.some.injEq]
  exact compare_lt_iff_lt

theorem le_iff_rank (ha : a.isNaN = false) (hb : b.isNaN = false) : a ≤ b ↔ rank a ≤ rank b := by
  show decide ((a.toModel.unpack.compare b.toModel.unpack).any (·.isLE) = true) = true ↔ _
  rw [compare_rank ha hb, decide_eq_true_iff, Option.any_some, Ordering.isLE_iff_ne_gt]
  exact compare_le_iff_le

theorem beq_iff_rank (ha : a.isNaN = false) (hb : b.isNaN = false) : (a == b) = true ↔ rank a = rank b := by
  show (a.toModel.unpack.compare b.toModel.unpack == some .eq) = true ↔ _
  rw [compare_rank ha hb, beq_iff_eq, Option.some.injEq]
  exact compare_eq_iff_eq

end Compare

/-! ## What orders have -/

section Order

variable {a b c : Float}

/-- Only numbers are ordered. -/
theorem isNaN_of_le (h : a ≤ b) : a.isNaN = false ∧ b.isNaN = false := by
  refine ⟨Bool.eq_false_iff.mpr ?_, Bool.eq_false_iff.mpr ?_⟩
  · intro ha
    exact not_le_of_isNaN (.inl ha) h
  · intro hb
    exact not_le_of_isNaN (.inr hb) h

theorem isNaN_of_lt (h : a < b) : a.isNaN = false ∧ b.isNaN = false := by
  refine ⟨Bool.eq_false_iff.mpr ?_, Bool.eq_false_iff.mpr ?_⟩
  · intro ha
    exact not_lt_of_isNaN (.inl ha) h
  · intro hb
    exact not_lt_of_isNaN (.inr hb) h

theorem number_le_refl (ha : a.isNaN = false) : a ≤ a := (le_iff_rank ha ha).mpr (le_refl _)

theorem number_le_of_not_lt (ha : a.isNaN = false) (hb : b.isNaN = false) (h : ¬a < b) : b ≤ a := by
  rw [lt_iff_rank ha hb] at h
  exact (le_iff_rank hb ha).mpr (not_lt.mp h)

theorem number_le_of_lt (h : a < b) : a ≤ b := by
  obtain ⟨ha, hb⟩ := isNaN_of_lt h
  exact (le_iff_rank ha hb).mpr (le_of_lt ((lt_iff_rank ha hb).mp h))

theorem number_le_trans (hab : a ≤ b) (hbc : b ≤ c) : a ≤ c := by
  obtain ⟨ha, hb⟩ := isNaN_of_le hab
  obtain ⟨-, hc⟩ := isNaN_of_le hbc
  have hrank : rank a ≤ rank b := (le_iff_rank ha hb).mp hab
  exact (le_iff_rank ha hc).mpr (hrank.trans ((le_iff_rank hb hc).mp hbc))

theorem number_lt_of_le_of_lt (hab : a ≤ b) (hbc : b < c) : a < c := by
  obtain ⟨ha, hb⟩ := isNaN_of_le hab
  obtain ⟨-, hc⟩ := isNaN_of_lt hbc
  have hrank : rank a ≤ rank b := (le_iff_rank ha hb).mp hab
  exact (lt_iff_rank ha hc).mpr (hrank.trans_lt ((lt_iff_rank hb hc).mp hbc))

theorem number_not_le_of_lt (h : a < b) : ¬b ≤ a := by
  obtain ⟨ha, hb⟩ := isNaN_of_lt h
  rw [le_iff_rank hb ha]
  exact not_le_of_gt ((lt_iff_rank ha hb).mp h)

/-- Of two numbers that do not compare equal one is less than the other. -/
theorem number_lt_or_gt (ha : a.isNaN = false) (hb : b.isNaN = false) (h : (a == b) = false) : a < b ∨ b < a := by
  have hrank : rank a ≠ rank b := fun hsame => Bool.eq_false_iff.mp h ((beq_iff_rank ha hb).mpr hsame)
  rw [lt_iff_rank ha hb, lt_iff_rank hb ha]
  exact lt_or_gt_of_ne hrank

/-- A number that is less than another one does not equal it. -/
theorem beq_of_lt (h : a < b) : (a == b) = false := by
  obtain ⟨ha, hb⟩ := isNaN_of_lt h
  have hrank : rank a ≠ rank b := ne_of_lt ((lt_iff_rank ha hb).mp h)
  rw [Bool.eq_false_iff]
  intro hbeq
  exact hrank ((beq_iff_rank ha hb).mp hbeq)

/-- Numbers that compare equal, as the zeros do, are greater than the same numbers. -/
theorem lt_congr_of_beq (hb : b.isNaN = false) (hc : c.isNaN = false) (h : (b == c) = true) :
    a < b ↔ a < c := by
  have hrank : rank b = rank c := (beq_iff_rank hb hc).mp h
  constructor
  · intro hab
    have ha := (isNaN_of_lt hab).1
    rw [lt_iff_rank ha hb, hrank] at hab
    exact (lt_iff_rank ha hc).mpr hab
  · intro hac
    have ha := (isNaN_of_lt hac).1
    rw [lt_iff_rank ha hc, ← hrank] at hac
    exact (lt_iff_rank ha hb).mpr hac

end Order

/-! ## The greatest of several numbers -/

/-- **One more number** is the greatest if it is greater than the greatest so far, which otherwise stands. -/
theorem isGreatest_append {xs : List Float} {best x : Float} (hbest : IsGreatest {y | y ∈ xs} best)
    (hx : x.isNaN = false) : IsGreatest {y | y ∈ xs ++ [x]} (if best < x then x else best) := by
  obtain ⟨hmem, hupper⟩ := hbest
  have hbestNumber : best.isNaN = false := (isNaN_of_le (hupper hmem)).1
  by_cases hlt : best < x
  · rw [if_pos hlt]
    refine ⟨List.mem_append_right _ (List.mem_singleton_self x), ?_⟩
    intro y hy
    rcases List.mem_append.mp hy with hold | hnew
    · exact number_le_trans (hupper hold) (number_le_of_lt hlt)
    · rw [List.mem_singleton.mp hnew]
      exact number_le_refl hx
  · rw [if_neg hlt]
    refine ⟨List.mem_append_left _ hmem, ?_⟩
    intro y hy
    rcases List.mem_append.mp hy with hold | hnew
    · exact hupper hold
    · rw [List.mem_singleton.mp hnew]
      exact number_le_of_not_lt hbestNumber hx hlt

/-- A single number is the greatest there is. -/
theorem isGreatest_singleton {x : Float} (hx : x.isNaN = false) : IsGreatest {y | y ∈ [x]} x := by
  refine ⟨List.mem_singleton_self x, ?_⟩
  intro y hy
  rw [List.mem_singleton.mp hy]
  exact number_le_refl hx

end TradingRules
