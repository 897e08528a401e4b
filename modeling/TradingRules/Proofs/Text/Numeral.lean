import TradingRules.Proofs.Decimal.Numeral
import TradingRules.Text.Numeral

/-!
# `Proofs.Text.Numeral` — numerals as numbers in text

Text that holds a number may hold much besides: white space around it, underscores in it, a word in place of it.
Numerals have none of that, so their text is read as the double nearest to their value: `number?_numeral`.
-/

namespace TradingRules.Text

open Decimal

theorem range_of_isDigit {c : Char} (h : c.isDigit = true) : 48 ≤ c.toNat ∧ c.toNat ≤ 57 := by
  simp only [Char.isDigit, Bool.and_eq_true, decide_eq_true_eq, ge_iff_le, UInt32.le_iff_toNat_le] at h
  exact h

theorem isBlank_of_numeralChar {c : Char} (h : NumeralChar c) : isBlank c = false ∧ c ≠ '_' := by
  rcases h with hdigit | hmark
  · have hrange := range_of_isDigit hdigit
    constructor
    · unfold isBlank
      simp only [Bool.or_eq_false_iff, Bool.and_eq_false_iff, decide_eq_false_iff_not, beq_eq_false_iff_ne]
      omega
    · rintro rfl
      cases hdigit
  · simp only [List.mem_cons, List.not_mem_nil, or_false] at hmark
    rcases hmark with rfl | rfl | rfl | rfl <;> decide

/-- Text without white space is not trimmed. -/
theorem trimBoth_eq {p : Char → Bool} {cs : List Char} (h : ∀ c ∈ cs, p c = false) : trimBoth p cs = cs := by
  have hdrop {ds : List Char} (hds : ∀ c ∈ ds, p c = false) : ds.dropWhile p = ds := by
    cases ds with
    | nil => rfl
    | cons d ds => rw [List.dropWhile_cons, hds d List.mem_cons_self, if_neg Bool.false_ne_true]
  unfold trimBoth
  rw [hdrop h, hdrop fun c hc => h c (List.mem_reverse.mp hc), List.reverse_reverse]

/-- Text without underscores has none to be dropped. -/
theorem joinDigits_eq {cs : List Char} (h : ∀ c ∈ cs, c ≠ '_') (afterDigit : Bool) :
    joinDigits afterDigit cs = some cs := by
  induction cs generalizing afterDigit with
  | nil => rfl
  | cons c cs ih =>
      obtain ⟨hc, hcs⟩ := List.forall_mem_cons.mp h
      rw [joinDigits, ih hcs]
      · rfl
      · exact hc

theorem exponent?_mark {power : Option (Bool × List Char)}
    (hpower : ∀ negative ds, power = some (negative, ds) → ds ≠ [] ∧ AllDigits ds) :
    exponent? (Numeral.mark power) = some ((Numeral.exponent? power).getD 0) := by
  cases power with
  | none => rfl
  | some power =>
      obtain ⟨negative, ds⟩ := power
      obtain ⟨hne, hdigits⟩ := hpower negative ds rfl
      rw [Numeral.mark, exponent?, if_pos (.inl rfl), Numeral.takeSign_mark]
      dsimp only
      rw [digits?_eq hne hdigits]
      rfl

/-- Digits with a point and an exponent are the decimal that they are. -/
theorem decimal?_text {n : Numeral} (hn : n.Valid) : decimal? n.text = some n.value := by
  obtain ⟨d, ds, hds, -⟩ := hn.exists_cons
  have hmark : NoDigit (Numeral.mark n.power) := by
    have h := (noDigit_mark n.power delimiter_nil).1
    rwa [List.append_nil] at h
  obtain ⟨hwhole, hafter⟩ := takeWhile_digits hn.digits_whole (noDigit_fraction n.part hmark)
  obtain ⟨hpart, hrest⟩ := takeWhile_digits hn.digits_part hmark
  have hexponent := exponent?_mark hn.power
  obtain ⟨whole, part, power⟩ := n
  dsimp only at hds hwhole hafter hpart hrest hexponent
  subst hds
  unfold decimal? Numeral.text
  dsimp only
  rw [hwhole, hafter]
  cases part with
  | nil =>
      -- what follows the digits does not start with a point
      cases power with
      | none => rfl
      | some power =>
          show (exponent? (Numeral.mark (some power))).map _ = _
          rw [hexponent]
          rfl
  | cons e es =>
      rw [Numeral.fraction_of_ne_nil (List.cons_ne_nil e es), List.cons_append]
      simp only [hpart, hrest, hexponent]
      rfl

theorem toLower_of_isDigit {c : Char} (h : c.isDigit = true) : c.toLower = c := by
  unfold Char.toLower
  refine dif_neg ?_
  rintro ⟨hupper, -⟩
  have hle : 65 ≤ c.toNat := UInt32.le_iff_toNat_le.mp hupper
  have hrange := range_of_isDigit h
  omega

/-- A numeral is no word. -/
theorem magnitude?_text {n : Numeral} (hn : n.Valid) : magnitude? n.text = some (nearest n.value) := by
  obtain ⟨d, ds, hds, hd⟩ := hn.exists_cons
  have hne (first : Char) (rest : List Char) (hfirst : first.isDigit = false) :
      String.ofList (n.text.map Char.toLower) ≠ String.ofList (first :: rest) := by
    intro heq
    have hlist := congrArg String.toList heq
    rw [String.toList_ofList, String.toList_ofList, Numeral.text, hds, List.cons_append, List.map_cons,
      toLower_of_isDigit hd] at hlist
    rw [(List.cons.inj hlist).1, hfirst] at hd
    cases hd
  unfold magnitude?
  dsimp only
  rw [if_neg, if_neg, decimal?_text hn]
  · rfl
  · exact hne 'n' ['a', 'n'] rfl
  · rintro (heq | heq)
    · exact hne 'i' ['n', 'f'] rfl heq
    · exact hne 'i' ['n', 'f', 'i', 'n', 'i', 't', 'y'] rfl heq

/-- **A numeral is the text of a number**, the double nearest to its value. -/
theorem number?_numeral {n : Numeral} (hn : n.Valid) (negative : Bool) :
    number? (signed negative n.text) = some (if negative then -nearest n.value else nearest n.value) := by
  have hchars := numeralChar_signed hn.numeralChar negative
  have hsign : takeSign (signed negative n.text) = (negative, n.text) := by
    obtain ⟨d, ds, hds, hd⟩ := hn.exists_cons
    cases negative with
    | true => rfl
    | false =>
        unfold signed Numeral.text
        rw [if_neg Bool.false_ne_true, hds]
        refine takeSign.eq_3 _ ?_ ?_
        all_goals
          rintro tail ⟨⟩
          cases hd
  unfold number?
  rw [trimBoth_eq fun c hc => (isBlank_of_numeralChar (hchars c hc)).1,
    joinDigits_eq fun c hc => (isBlank_of_numeralChar (hchars c hc)).2]
  dsimp only [bind, Option.bind]
  rw [hsign]
  dsimp only
  rw [magnitude?_text hn]
  rfl

end TradingRules.Text
