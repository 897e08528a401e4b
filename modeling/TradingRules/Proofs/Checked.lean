import TradingRules.Condition.Issue

/-!
# `Proofs.Checked` — checked parts taken apart

A whole that is put together from checked parts is there if all of its parts are, and is rejected if one of them
is. Its issues are those of its parts, in order.

## Contents
* `Checked.map_eq_ok`, `Checked.under_eq_ok`, `Checked.seq_eq_ok` — wholes that are there;
* `Checked.Rejected` — what stands in the way of a value;
* `Checked.issues` — the issues of a whole.
-/

namespace TradingRules
namespace Checked

variable {α β : Type}

theorem map_eq_ok {f : α → β} {x : Checked α} {b : β} : x.map f = .ok b ↔ ∃ a, x = .ok a ∧ f a = b := by
  cases x <;> simp [map]

theorem under_eq_ok {step : Step} {x : Checked α} {a : α} : x.under step = .ok a ↔ x = .ok a := by
  cases x <;> simp [under]

/-- A combination is there if both of its parts are. -/
theorem seq_eq_ok {f : Checked (α → β)} {x : Checked α} {b : β} :
    f <*> x = .ok b ↔ ∃ g a, f = .ok g ∧ x = .ok a ∧ g a = b := by
  cases f <;> cases x <;> simp [both]

/-- Issues stand in the way of a value. -/
def Rejected (x : Checked α) : Prop := ∃ issues, x = .bad issues

theorem rejected_fail (kind : IssueKind) : (fail kind : Checked α).Rejected := ⟨_, rfl⟩

theorem not_rejected_ok (a : α) : ¬(ok a).Rejected := nofun

theorem rejected_map {f : α → β} {x : Checked α} (h : x.Rejected) : (f <$> x).Rejected := by
  obtain ⟨issues, rfl⟩ := h
  exact ⟨issues, rfl⟩

theorem rejected_under (step : Step) {x : Checked α} (h : x.Rejected) : (x.under step).Rejected := by
  obtain ⟨issues, rfl⟩ := h
  exact ⟨_, rfl⟩

/-- Of two parts that are combined either may be in the way. -/
theorem rejected_seq {f : Checked (α → β)} {x : Checked α} (h : f.Rejected ∨ x.Rejected) : (f <*> x).Rejected := by
  cases f with
  | bad issues => cases x <;> exact ⟨_, rfl⟩
  | ok g =>
      rcases h with hf | ⟨issues, rfl⟩
      · exact absurd hf (not_rejected_ok g)
      · exact ⟨issues, rfl⟩

/-- The issues that stand in the way of a value, none if it is there. -/
def issues : Checked α → List Issue
  | .ok _ => []
  | .bad issues => issues

theorem issues_map (f : α → β) (x : Checked α) : (f <$> x).issues = x.issues := by
  cases x <;> rfl

/-- The issues of a combination are those of its parts, in order. -/
theorem issues_seq (f : Checked (α → β)) (x : Checked α) : (f <*> x).issues = f.issues ++ x.issues := by
  cases f <;> cases x <;> simp [issues, both]

end Checked
end TradingRules
