import Mathlib.Data.List.Induction
import Mathlib.Order.Bounds.Defs
import TradingRules.Proofs.History.Replay
import TradingRules.Proofs.History.Series

/-!
# `Proofs.History.LastTrue` — when a rule passed last, bar after bar

The summary of a history can be kept up to date: with one bar more it is that of the bars before it and what
the rule comes to on the new bar (`History.lastTrue_incremental`). Two things carry this. No outcome depends on
a later bar, so the first rows have the first outcomes (`History.outcomes_take`). And the summary of outcomes
is made by one step for each bar (`LastTrue.ofPasses_concat`); what it tells about the bars is an
invariant of that step (`LastTrue.Tells.after`).

## Contents
* `History.passesOn` — whether a rule passes on a bar, by an evaluation of its own;
* `History.outcomes_take` — the first rows have the first outcomes;
* `LastTrue.ofPasses`, `LastTrue.after` — the summary of bars, and with one bar more;
* `LastTrue.Tells`, `FailsLast` — what a summary tells, and how long a rule has failed;
* `History.lastTrue_incremental` — the summary of a history, and that of all its rows but the last.
-/

namespace TradingRules

open Fallible

namespace History

/-! ## Outcomes of the first rows -/

/-- The first bars have the first outcomes, whatever window they enter. -/
theorem outcomesOn_take {c : Condition} {w : Window} {bars : List Snapshot} {outcomes : List Bool}
    (h : outcomesOn c w bars = .ok outcomes) (k : Nat) :
    outcomesOn c w (bars.take k) = .ok (outcomes.take k) := by
  induction bars generalizing w outcomes k with
  | nil =>
      cases h
      rw [List.take_nil, List.take_nil]
      rfl
  | cons bar bars ih =>
      cases k with
      | zero => rfl
      | succ k =>
          obtain ⟨trace, rest, htrace, hrest, rfl⟩ := outcomesOn_cons_eq_ok.mp h
          exact outcomesOn_cons_eq_ok.mpr ⟨trace, rest.take k, htrace, ih hrest k, rfl⟩

variable {h : History} {c : Condition} {capacity : Option Int} {settings : Except ConfigError Settings}
  {outcomes : List Bool}

/-- Without bars nothing is read, and nothing can fail. -/
theorem outcomes_of_bars_nil (hbars : h.bars = []) : h.outcomes c capacity settings = .ok [] := by
  unfold History.outcomes
  rw [hbars]
  rfl

/-- **The first rows have the first outcomes.** -/
theorem outcomes_take (houtcomes : h.outcomes c capacity settings = .ok outcomes) (k : Nat) :
    (h.take k).outcomes c capacity settings = .ok (outcomes.take k) := by
  by_cases hprefix : (h.take k).bars = []
  · -- no rows are left: either none were asked for or there were none
    rw [outcomes_of_bars_nil hprefix]
    rcases List.take_eq_nil_iff.mp hprefix with rfl | hbars
    · rfl
    · rw [outcomes_of_bars_nil hbars] at houtcomes
      cases houtcomes
      rw [List.take_nil]
  · have hbars : h.bars ≠ [] := by
      intro hnil
      exact hprefix (by rw [take, hnil, List.take_nil])
    obtain ⟨window, bars, hwindow, hsnapshots, hon⟩ := (outcomes_eq_ok hbars).mp houtcomes
    exact (outcomes_eq_ok hprefix).mpr
      ⟨window, bars.take k, hwindow, snapshots_take hsnapshots, outcomesOn_take hon k⟩

/-! ## A rule on one bar -/

/-- Whether a rule passes on a bar: its conditions hold on the window of the settings, once all bars up to this
one have entered it. -/
def passesOn (h : History) (r : Rule) (settings : Except ConfigError Settings) (i : Nat) : Bool :=
  match openWindow none settings, h.snapshots with
  | .ok window, .ok bars =>
      (r.tree.toCondition.evaluate (window.pushAll (bars.take (i + 1))).context).toOption.any (·.passed)
  | _, _ => false

/-- The outcomes of a rule are what it comes to on each bar. -/
theorem ruleOutcomes_eq_passesOn {r : Rule} (houtcomes : h.ruleOutcomes r none settings = .ok outcomes) :
    outcomes = (List.range h.bars.length).map (h.passesOn r settings) := by
  by_cases hbars : h.bars = []
  · rw [ruleOutcomes, outcomes_of_bars_nil hbars] at houtcomes
    cases houtcomes
    rw [hbars]
    rfl
  · obtain ⟨window, bars, hwindow, hsnapshots, hon⟩ := (outcomes_eq_ok hbars).mp houtcomes
    have hlength : outcomes.length = h.bars.length :=
      (length_outcomesOn hon).trans (length_snapshots hsnapshots)
    refine List.ext_getElem? fun i => ?_
    by_cases hi : i < h.bars.length
    · obtain ⟨trace, htrace, hpassed⟩ :=
        evaluate_of_outcomesOn hon (i := i) (by rwa [length_snapshots hsnapshots])
      have hpasses : h.passesOn r settings i = trace.passed := by
        unfold passesOn
        rw [hwindow, hsnapshots]
        dsimp only
        rw [htrace]
        rfl
      rw [hpassed, List.getElem?_map, List.getElem?_range hi, Option.map_some, hpasses]
    · rw [List.getElem?_eq_none (by omega), List.getElem?_eq_none (by simpa using hi)]

end History

/-! ## One bar more -/

/-- The same bar with one more after it. -/
def LastPass.older (pass : LastPass) : LastPass := { pass with barsAgo := pass.barsAgo + 1 }

namespace LastTrue

/-- The summary after one bar more: a bar on which the rule passed is the last one from now on, and otherwise
the last one is one bar further away. -/
def after (s : LastTrue) (row : Row) (passed : Bool) : LastTrue :=
  if passed then { total := s.total + 1, last := some ⟨row.label, row.time, 0⟩ }
  else { total := s.total, last := s.last.map (·.older) }

/-- A row that is further away is so by as many bars. -/
theorem latest_succ (ago : Nat) (rows : List (Row × Bool)) :
    latest (ago + 1) rows = (latest ago rows).map (·.older) := by
  induction rows generalizing ago with
  | nil => rfl
  | cons row rows ih =>
      obtain ⟨row, _ | _⟩ := row
      · exact ih (ago + 1)
      · rfl

theorem ofOutcomes_concat (bars : Frame) (outcomes : List Bool) (hlength : bars.length = outcomes.length)
    (row : Row) (passed : Bool) :
    ofOutcomes (bars ++ [row]) (outcomes ++ [passed]) = (ofOutcomes bars outcomes).after row passed := by
  have htotal : (outcomes ++ [passed]).count true = outcomes.count true + [passed].count true :=
    List.count_append
  have hrows : ((bars ++ [row]).zip (outcomes ++ [passed])).reverse
      = (row, passed) :: (bars.zip outcomes).reverse := by
    rw [List.zip_append hlength, List.reverse_append]
    rfl
  unfold ofOutcomes after
  rw [htotal, hrows]
  cases passed with
  | true => rfl
  | false =>
      rw [latest, latest_succ, if_neg Bool.false_ne_true, List.count_singleton]
      rfl

/-- The summary of bars, from whether a rule passes on each of them. -/
def ofPasses (bars : Frame) (passes : Nat → Bool) : LastTrue :=
  ofOutcomes bars ((List.range bars.length).map passes)

/-- **One step for each bar.** -/
theorem ofPasses_concat (bars : Frame) (row : Row) (passes : Nat → Bool) :
    ofPasses (bars ++ [row]) passes = (ofPasses bars passes).after row (passes bars.length) := by
  have hpasses : (List.range (bars ++ [row]).length).map passes
      = (List.range bars.length).map passes ++ [passes bars.length] := by
    rw [List.length_append, List.length_singleton, List.range_succ, List.map_append, List.map_singleton]
  unfold ofPasses
  rw [hpasses]
  exact ofOutcomes_concat bars _ (by rw [List.length_map, List.length_range]) row _

/-! ## What a summary tells -/

/-- Of `n` bars there are `k` last ones, and the rule passes on none of them. -/
def FailsLast (passes : Nat → Bool) (n k : Nat) : Prop :=
  k ≤ n ∧ ∀ i, n - k ≤ i → i < n → passes i = false

/-- What a summary tells about bars: on how many of them a rule passes, and, unless it is on none, the label,
the time and the place of the last of these. -/
structure Tells (bars : Frame) (passes : Nat → Bool) (s : LastTrue) : Prop where
  total_eq : s.total = (List.range bars.length).countP passes
  never : s.last = none → ∀ i < bars.length, passes i = false
  row_of_last : ∀ pass, s.last = some pass →
    ∃ i row, bars[i]? = some row ∧ passes i = true ∧ pass.label = row.label ∧ pass.time = row.time ∧
      i + 1 + pass.barsAgo = bars.length
  fails_since : ∀ pass, s.last = some pass → FailsLast passes bars.length pass.barsAgo

namespace Tells

variable {bars : Frame} {passes : Nat → Bool} {s : LastTrue}

/-- The rule has failed for as long as the summary says, and no longer. -/
theorem longest (h : s.Tells bars passes) {pass : LastPass} (hlast : s.last = some pass) :
    IsGreatest {k | FailsLast passes bars.length k} pass.barsAgo := by
  refine ⟨h.fails_since pass hlast, ?_⟩
  rintro k ⟨-, hfails⟩
  obtain ⟨i, row, -, hpasses, -, -, hplace⟩ := h.row_of_last pass hlast
  -- a longer row of failures would take in the bar on which the rule passed
  by_contra hlonger
  have hfails : passes i = false := hfails i (by omega) (by omega)
  rw [hpasses] at hfails
  cases hfails

/-- A rule that has passed on no bar has a summary that says so. -/
theorem total_eq_zero (h : s.Tells bars passes) (hlast : s.last = none) : s.total = 0 := by
  rw [h.total_eq, List.countP_eq_zero]
  intro i hi
  rw [h.never hlast i (List.mem_range.mp hi)]
  exact Bool.false_ne_true

theorem last_eq_none_iff (h : s.Tells bars passes) :
    s.last = none ↔ ∀ i < bars.length, passes i = false := by
  refine ⟨h.never, ?_⟩
  intro hfails
  cases hlast : s.last with
  | none => rfl
  | some pass =>
      obtain ⟨i, row, -, hpasses, -, -, hplace⟩ := h.row_of_last pass hlast
      rw [hfails i (by omega)] at hpasses
      cases hpasses

theorem nil : (ofPasses [] passes).Tells [] passes where
  total_eq := rfl
  never _ i hi := absurd hi (Nat.not_lt_zero i)
  row_of_last _ hlast := nomatch hlast
  fails_since _ hlast := nomatch hlast

/-- A bar on which the rule passes is the last one of those. -/
theorem after_passed (h : s.Tells bars passes) (row : Row) (hpassed : passes bars.length = true) :
    Tells (bars ++ [row]) passes { total := s.total + 1, last := some ⟨row.label, row.time, 0⟩ } := by
  have hlength : (bars ++ [row]).length = bars.length + 1 := List.length_append
  constructor
  case total_eq =>
    rw [hlength, List.range_succ, List.countP_append, List.countP_singleton, if_pos hpassed, h.total_eq]
  case never => exact nofun
  case row_of_last =>
    rintro pass ⟨⟩
    exact ⟨bars.length, row, List.getElem?_concat_length, hpassed, rfl, rfl, hlength.symm⟩
  case fails_since =>
    rintro pass ⟨⟩
    exact ⟨Nat.zero_le _, fun i hge hlt => absurd hlt (Nat.not_lt.mpr hge)⟩

/-- A bar on which it does not pass comes after the last one of those. -/
theorem after_failed (h : s.Tells bars passes) (row : Row) (hfailed : passes bars.length = false) :
    Tells (bars ++ [row]) passes { total := s.total, last := s.last.map (·.older) } := by
  have hlength : (bars ++ [row]).length = bars.length + 1 := List.length_append
  -- what holds of all bars before the new one, on which the rule fails, holds of all
  have hfails : ∀ {first : Nat}, (∀ i, first ≤ i → i < bars.length → passes i = false) →
      ∀ i, first ≤ i → i < bars.length + 1 → passes i = false := by
    intro first hbefore i hge hlt
    rcases Nat.lt_succ_iff_lt_or_eq.mp hlt with hlt | rfl
    · exact hbefore i hge hlt
    · exact hfailed
  constructor
  case total_eq =>
    have hnot : ¬passes bars.length = true := by
      rw [hfailed]
      exact Bool.false_ne_true
    rw [hlength, List.range_succ, List.countP_append, List.countP_singleton, if_neg hnot, h.total_eq, Nat.add_zero]
  case never =>
    intro hlast i hi
    have hnever := h.never (Option.map_eq_none_iff.mp hlast)
    exact hfails (fun i _ hlt => hnever i hlt) i (Nat.zero_le i) (hlength ▸ hi)
  case row_of_last =>
    intro _ holder
    obtain ⟨pass, hlast, rfl⟩ := Option.map_eq_some_iff.mp holder
    obtain ⟨i, row', hrow, hpasses, hlabel, htime, hplace⟩ := h.row_of_last pass hlast
    refine ⟨i, row', ?_, hpasses, hlabel, htime, ?_⟩
    · rw [List.getElem?_append_left (by omega), hrow]
    · rw [hlength, ← hplace]
      rfl
  case fails_since =>
    intro _ holder
    obtain ⟨pass, hlast, rfl⟩ := Option.map_eq_some_iff.mp holder
    obtain ⟨hle, hsince⟩ := h.fails_since pass hlast
    rw [hlength]
    refine ⟨Nat.succ_le_succ hle, ?_⟩
    rw [LastPass.older, Nat.add_sub_add_right]
    exact hfails hsince

/-- **What a summary tells is kept up to date** by what the rule comes to on one bar more. -/
theorem after (h : s.Tells bars passes) (row : Row) :
    (s.after row (passes bars.length)).Tells (bars ++ [row]) passes := by
  cases hpassed : passes bars.length with
  | true => exact h.after_passed row hpassed
  | false => exact h.after_failed row hpassed

end Tells

/-- **A summary tells on which bars the rule passes**, however many there are. -/
theorem tells_ofPasses (bars : Frame) (passes : Nat → Bool) : (ofPasses bars passes).Tells bars passes := by
  induction bars using List.reverseRecOn with
  | nil => exact .nil
  | append_singleton bars row ih =>
      rw [ofPasses_concat]
      exact ih.after row

end LastTrue

/-! ## The summary of a history -/

namespace History

open LastTrue (FailsLast)

variable {h : History} {r : Rule} {settings : Except ConfigError Settings} {whole : LastTrue}

/-- The summary of a history is made from what the rule comes to on each bar. -/
theorem eq_ofPasses_of_lastTrue (hwhole : h.lastTrue r settings = .ok whole) :
    whole = .ofPasses h.bars (h.passesOn r settings) := by
  obtain ⟨outcomes, houtcomes, rfl⟩ := map_eq_ok.mp hwhole
  rw [ruleOutcomes_eq_passesOn houtcomes]
  rfl

/-- The first rows have a summary, made from what the rule comes to on them as part of the whole. -/
theorem lastTrue_take (hwhole : h.lastTrue r settings = .ok whole) (n : Nat) :
    (h.take n).lastTrue r settings = .ok (.ofPasses (h.bars.take n) (h.passesOn r settings)) := by
  obtain ⟨outcomes, houtcomes, -⟩ := map_eq_ok.mp hwhole
  have hfirst : (List.range (h.bars.take n).length).map (h.passesOn r settings) = outcomes.take n := by
    rw [ruleOutcomes_eq_passesOn houtcomes, ← List.map_take, List.take_range, List.length_take]
  refine map_eq_ok.mpr ⟨outcomes.take n, outcomes_take houtcomes n, ?_⟩
  unfold LastTrue.ofPasses
  rw [hfirst]
  rfl

/-- **When a rule passed last is known bar after bar.** Let a rule, its history and the settings have a summary.
Then all rows but the last have one too, and it becomes that of the whole by what the rule comes to on the last
row. If it passes there, this row is the last one on which it did, no bar ago, and their number has grown by
one. If it does not, number, label and time are as they were, and the number of bars since then has grown by
one; if there was no bar on which it passed, there still is none. Of every history that has a summary, with
rows or without, the summary tells on how many bars the rule passes and, of the last of them, the label, the
time and the number of bars since, which is the greatest number of last bars on none of which it passes. -/
theorem lastTrue_incremental (hwhole : h.lastTrue r settings = .ok whole) :
    (∀ rows row, h.bars = rows ++ [row] →
      ∃ before, (h.take rows.length).lastTrue r settings = .ok before ∧
        (h.passesOn r settings rows.length = true →
          whole = { total := before.total + 1, last := some ⟨row.label, row.time, 0⟩ }) ∧
        (h.passesOn r settings rows.length = false → ∀ pass, before.last = some pass →
          whole = { total := before.total, last := some ⟨pass.label, pass.time, pass.barsAgo + 1⟩ }) ∧
        (h.passesOn r settings rows.length = false → before.last = none →
          before.total = 0 ∧ whole = { total := 0, last := none })) ∧
    whole.total = (List.range h.bars.length).countP (h.passesOn r settings) ∧
    (whole.last = none ↔ ∀ i < h.bars.length, h.passesOn r settings i = false) ∧
    ∀ pass, whole.last = some pass →
      IsGreatest {k | FailsLast (h.passesOn r settings) h.bars.length k} pass.barsAgo ∧
      ∃ i row, h.bars[i]? = some row ∧ h.passesOn r settings i = true ∧ pass.label = row.label ∧
        pass.time = row.time ∧ i + 1 + pass.barsAgo = h.bars.length := by
  have hmade := eq_ofPasses_of_lastTrue hwhole
  have htells : whole.Tells h.bars (h.passesOn r settings) := by
    rw [hmade]
    exact LastTrue.tells_ofPasses ..
  refine ⟨?incremental, htells.total_eq, htells.last_eq_none_iff, ?last⟩
  case last =>
    intro pass hlast
    exact ⟨htells.longest hlast, htells.row_of_last pass hlast⟩
  case incremental =>
    intro rows row hbars
    have hbefore := lastTrue_take hwhole rows.length
    have hknown := LastTrue.tells_ofPasses rows (h.passesOn r settings)
    rw [hbars, List.take_left] at hbefore
    rw [hbars, LastTrue.ofPasses_concat] at hmade
    refine ⟨_, hbefore, ?passed, ?failed, ?never⟩
    case passed =>
      intro hpasses
      rw [hmade, hpasses]
      rfl
    case failed =>
      intro hfails pass hlast
      rw [hmade, hfails, LastTrue.after, if_neg Bool.false_ne_true, hlast]
      rfl
    case never =>
      intro hfails hlast
      have hzero := hknown.total_eq_zero hlast
      refine ⟨hzero, ?_⟩
      rw [hmade, hfails, LastTrue.after, if_neg Bool.false_ne_true, hlast, hzero]
      rfl

/-- Three numbered bars, of which the last has no time. The indicator is high on the first two. -/
def cooling : History where
  bars := [(0, Json.str "2024-01-02T09:30:00"), (1, .str "2024-01-02T09:35:00"), (2, .null)].map fun (n, time) =>
    ⟨.value (.int n), [(Row.timeColumn, time), ("close", .float 10.0)]⟩
  indicators := [(1, some ([75.0, 71.0, 60.0].map fun value => ⟨.value .null, [("value", .float value)]⟩))]

/-- The second of its bars, `ago` bars before the newest. -/
def secondPass (ago : Nat) : LastPass := ⟨.value (.int 1), Timestamp.parse? "2024-01-02T09:35:00", ago⟩

/-- The rule passes on the second bar and not on the third, so that the third bar leaves the summary as it was
but for the number of bars since. -/
theorem lastTrue_incremental_cooling :
    (cooling.take 2).lastTrue .buyHigh (.ok {}) = .ok { total := 2, last := some (secondPass 0) } ∧
      cooling.lastTrue .buyHigh (.ok {}) = .ok { total := 2, last := some (secondPass 1) } := by
  obtain ⟨first, hfirst, hvalue⟩ := exists_ok_of_any (x := (cooling.take 2).lastTrue .buyHigh (.ok {}))
    (p := fun first => first == { total := 2, last := some (secondPass 0) }) (by decide +kernel)
  obtain ⟨whole, hwhole, -⟩ := exists_ok_of_any (x := cooling.lastTrue .buyHigh (.ok {}))
    (p := fun _ => true) (by decide +kernel)
  have hfails : cooling.passesOn .buyHigh (.ok {}) 2 = false := by decide +kernel
  obtain ⟨before, hbefore, -, hfailed, -⟩ := (lastTrue_incremental hwhole).1 (cooling.bars.take 2) _ rfl
  cases hfirst.symm.trans hbefore
  cases beq_iff_eq.mp hvalue
  refine ⟨hfirst, ?_⟩
  rw [hwhole, hfailed hfails _ rfl]
  rfl

end History

end TradingRules
