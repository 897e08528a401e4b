import Mathlib.Data.List.Forall2

/-!
# `Proofs.Fallible` — results that may be errors

Readings, windows and histories fail with errors of their own. These are the rules by which a computation
that succeeded is taken apart: a sequence succeeded at every step, a traversal at every item.
-/

namespace TradingRules
namespace Fallible

variable {ε ε' α β : Type}

theorem bind_eq_ok {x : Except ε α} {f : α → Except ε β} {b : β} :
    (x >>= f) = .ok b ↔ ∃ a, x = .ok a ∧ f a = .ok b := by
  cases x <;> simp [bind, Except.bind]

theorem bind_eq_error {x : Except ε α} {f : α → Except ε β} {e : ε} :
    (x >>= f) = .error e ↔ x = .error e ∨ ∃ a, x = .ok a ∧ f a = .error e := by
  cases x <;> simp [bind, Except.bind]

theorem map_eq_ok {x : Except ε α} {f : α → β} {b : β} :
    x.map f = .ok b ↔ ∃ a, x = .ok a ∧ f a = b := by
  cases x <;> simp [Except.map]

theorem map_eq_error {x : Except ε α} {f : α → β} {e : ε} : x.map f = .error e ↔ x = .error e := by
  cases x <;> simp [Except.map]

theorem pure_eq_ok {a b : α} : (pure a : Except ε α) = .ok b ↔ a = b := by
  simp [pure, Except.pure]

theorem mapError_eq_ok {x : Except ε α} {f : ε → ε'} {a : α} :
    x.mapError f = .ok a ↔ x = .ok a := by
  cases x <;> simp [Except.mapError]

theorem mapError_eq_error {x : Except ε α} {f : ε → ε'} {e' : ε'} :
    x.mapError f = .error e' ↔ ∃ e, x = .error e ∧ f e = e' := by
  cases x <;> simp [Except.mapError]

/-- A computation ends in an error. -/
def Fails (x : Except ε α) : Prop := ∃ e, x = .error e

@[simp] theorem fails_error (e : ε) : Fails (.error e : Except ε α) := ⟨e, rfl⟩

@[simp] theorem not_fails_ok (a : α) : ¬Fails (.ok a : Except ε α) := nofun

@[simp] theorem not_fails_pure (a : α) : ¬Fails (pure a : Except ε α) := nofun

@[simp] theorem fails_map {x : Except ε α} {f : α → β} : Fails (x.map f) ↔ Fails x := by
  cases x <;> simp [Fails, Except.map]

/-- A sequence fails if its first step does or its second, where that does not depend on what the first gives. -/
theorem fails_bind {x : Except ε α} {f : α → Except ε β} {P : Prop} (h : ∀ a, Fails (f a) ↔ P) :
    Fails (x >>= f) ↔ Fails x ∨ P := by
  cases x with
  | error e => exact iff_of_true ⟨e, rfl⟩ (.inl ⟨e, rfl⟩)
  | ok a => exact (h a).trans (or_iff_right (not_fails_ok a)).symm

theorem fails_bind_pure {x : Except ε α} {f : α → β} : Fails (x >>= fun a => pure (f a)) ↔ Fails x :=
  (fails_bind fun a => iff_false_intro (not_fails_pure (f a))).trans (iff_of_eq (or_false _))

/-- What does not fail gives a result. -/
theorem not_fails_iff {x : Except ε α} : ¬Fails x ↔ ∃ a, x = .ok a := by
  cases x with
  | error e => simp
  | ok a => simp

/-- A computation ends in an error of a given kind. -/
def FailsWith (P : ε → Prop) (x : Except ε α) : Prop := ∃ e, x = .error e ∧ P e

section Kinds

variable {P : ε → Prop}

@[simp] theorem failsWith_error {e : ε} : FailsWith P (.error e : Except ε α) ↔ P e := by
  simp [FailsWith]

@[simp] theorem not_failsWith_ok (a : α) : ¬FailsWith P (.ok a : Except ε α) := nofun

@[simp] theorem failsWith_map {x : Except ε α} {f : α → β} : FailsWith P (x.map f) ↔ FailsWith P x := by
  cases x <;> simp [FailsWith, Except.map]

/-- A sequence fails in its first step, or else in its second. -/
theorem failsWith_bind {x : Except ε α} {f : α → Except ε β} :
    FailsWith P (x >>= f) ↔ FailsWith P x ∨ ∃ a, x = .ok a ∧ FailsWith P (f a) := by
  cases x <;> simp [FailsWith, bind, Except.bind]

theorem failsWith_mapError {P : ε' → Prop} {x : Except ε α} {f : ε → ε'} :
    FailsWith P (x.mapError f) ↔ FailsWith (fun e => P (f e)) x := by
  cases x <;> simp [FailsWith, Except.mapError]

end Kinds

/-- The first of several items that does not have `P` has `Q`. -/
def StopsAt (P Q : α → Prop) (xs : List α) : Prop :=
  ∃ before x after, xs = before ++ x :: after ∧ (∀ y ∈ before, P y) ∧ Q x

theorem not_stopsAt_nil {P Q : α → Prop} : ¬StopsAt P Q [] := by
  rintro ⟨before, x, after, h, -⟩
  exact List.append_ne_nil_of_right_ne_nil before (List.cons_ne_nil x after) h.symm

theorem stopsAt_cons {P Q : α → Prop} {x : α} {xs : List α} :
    StopsAt P Q (x :: xs) ↔ Q x ∨ P x ∧ StopsAt P Q xs := by
  constructor
  · rintro ⟨before, y, after, h, hbefore, hy⟩
    cases before with
    | nil =>
        cases h
        exact .inl hy
    | cons z before =>
        cases h
        obtain ⟨hz, hrest⟩ := List.forall_mem_cons.mp hbefore
        exact .inr ⟨hz, before, y, after, rfl, hrest, hy⟩
  · rintro (hx | ⟨hx, before, y, after, rfl, hbefore, hy⟩)
    · exact ⟨[], x, xs, rfl, List.forall_mem_nil _, hx⟩
    · exact ⟨x :: before, y, after, rfl, List.forall_mem_cons.mpr ⟨hx, hbefore⟩, hy⟩

/-- A traversal fails at the first item that does. -/
theorem failsWith_mapM {P : ε → Prop} {f : α → Except ε β} {xs : List α} :
    FailsWith P (xs.mapM f) ↔ StopsAt (fun x => ∃ y, f x = .ok y) (fun x => FailsWith P (f x)) xs := by
  induction xs with
  | nil =>
      rw [List.mapM_nil]
      exact iff_of_false (not_failsWith_ok []) not_stopsAt_nil
  | cons x xs ih =>
      rw [List.mapM_cons, failsWith_bind, stopsAt_cons, ← ih]
      refine or_congr_right ?_
      constructor
      · rintro ⟨y, hy, h⟩
        exact ⟨⟨y, hy⟩, failsWith_map.mp h⟩
      · rintro ⟨⟨y, hy⟩, h⟩
        exact ⟨y, hy, failsWith_map.mpr h⟩

/-- A result that is checked to have a property exists. -/
theorem exists_ok_of_any {x : Except ε α} {p : α → Bool} (h : x.toOption.any p = true) :
    ∃ a, x = .ok a ∧ p a = true := by
  cases x with
  | error e => cases h
  | ok a => exact ⟨a, rfl, h⟩

/-- A traversal succeeds with the results of its items. -/
theorem mapM_eq_ok {f : α → Except ε β} {xs : List α} {ys : List β} :
    xs.mapM f = .ok ys ↔ List.Forall₂ (fun x y => f x = .ok y) xs ys := by
  induction xs generalizing ys with
  | nil =>
      rw [List.mapM_nil, pure_eq_ok, List.forall₂_nil_left_iff]
      exact eq_comm
  | cons x xs ih =>
      rw [List.mapM_cons, bind_eq_ok, List.forall₂_cons_left_iff]
      constructor
      · rintro ⟨y, hy, h⟩
        obtain ⟨rest, hrest, h⟩ := bind_eq_ok.mp h
        exact ⟨y, rest, hy, ih.mp hrest, (pure_eq_ok.mp h).symm⟩
      · rintro ⟨y, rest, hy, hrest, rfl⟩
        exact ⟨y, hy, bind_eq_ok.mpr ⟨rest, ih.mpr hrest, rfl⟩⟩

/-- What the second of two related lists has item by item it has throughout. -/
theorem forall_mem_of_forall₂ {P : β → Prop} {xs : List α} {ys : List β}
    (h : List.Forall₂ (fun _ y => P y) xs ys) : ∀ y ∈ ys, P y := by
  induction h with
  | nil => exact nofun
  | cons hy _ ih => exact List.forall_mem_cons.mpr ⟨hy, ih⟩

/-- Every item of the first of two related lists is related to one of the second. -/
theorem exists_mem_of_forall₂ {R : α → β → Prop} {xs : List α} {ys : List β} (h : List.Forall₂ R xs ys) {x : α}
    (hx : x ∈ xs) : ∃ y ∈ ys, R x y := by
  induction h with
  | nil => exact absurd hx List.not_mem_nil
  | @cons a b as bs hab _ ih =>
      rcases List.mem_cons.mp hx with rfl | hx
      · exact ⟨b, List.mem_cons_self, hab⟩
      · obtain ⟨y, hy, hxy⟩ := ih hx
        exact ⟨y, List.mem_cons_of_mem _ hy, hxy⟩

/-- Two related lists both end before a position, or have related items there. -/
theorem getElem?_cases_of_forall₂ {R : α → β → Prop} {xs : List α} {ys : List β} (h : List.Forall₂ R xs ys) (i : Nat) :
    (xs[i]? = none ∧ ys[i]? = none) ∨ ∃ x y, xs[i]? = some x ∧ ys[i]? = some y ∧ R x y := by
  induction h generalizing i with
  | nil => exact .inl ⟨rfl, rfl⟩
  | @cons x y xs ys hr _ ih =>
      cases i with
      | zero => exact .inr ⟨x, y, rfl, rfl, hr⟩
      | succ i => exact ih i

/-- Related items put at the same position of related lists leave them related. -/
theorem forall₂_set {R : α → β → Prop} {xs : List α} {ys : List β} (h : List.Forall₂ R xs ys) (i : Nat) {x : α} {y : β}
    (hxy : R x y) : List.Forall₂ R (xs.set i x) (ys.set i y) := by
  induction h generalizing i with
  | nil => exact .nil
  | cons hr hrest ih =>
      cases i with
      | zero => exact .cons hxy hrest
      | succ i => exact .cons hr (ih i)

end Fallible
end TradingRules
