import TradingRules.Json.Reader
import TradingRules.Proofs.Text.Numeral

/-!
# `Proofs.Json.Numbers` — words and numbers read back

A scalar ends where the next character cannot belong to a number. Up to there an integer is read as the integer
it is, a numeral as the double nearest to its value, and a word as what it stands for; no word is the beginning of
a number, and no integer is taken for a double.

## Contents
* `readNumber?_numeral`, `readNumber?_writeInt` — doubles and integers;
* `ReadsBack` — what scalars are read back;
* `readScalar_float`, `readScalar_int`, `readScalar_word` — scalars.
-/

namespace TradingRules.Json

open Decimal

/-! ## The parts of a number -/

theorem takeWhole_append {whole rest : List Char} (hwhole : whole = ['0'] ∨ ∃ d ds, whole = d :: ds ∧ d ≠ '0')
    (hdigits : AllDigits whole) (hrest : NoDigit rest) : takeWhole (whole ++ rest) = (whole, rest) := by
  rcases hwhole with rfl | ⟨d, ds, rfl, hd⟩
  · rfl
  · obtain ⟨htake, hdrop⟩ := takeWhile_digits hdigits hrest
    rw [List.cons_append] at htake hdrop ⊢
    rw [takeWhole, htake, hdrop]
    rintro tail ⟨⟩
    exact hd rfl

theorem takeFraction_append {part rest : List Char} (hdigits : AllDigits part) (hrest : NoDigit rest)
    (hpoint : ∀ tail, rest ≠ '.' :: tail) : takeFraction (Numeral.fraction part ++ rest) = (part, rest) := by
  cases part with
  | nil =>
      rw [Numeral.fraction, List.nil_append, takeFraction]
      exact fun d tail h => hpoint _ h
  | cons d ds =>
      obtain ⟨hd, hds⟩ := List.forall_mem_cons.mp hdigits
      obtain ⟨htake, hdrop⟩ := takeWhile_digits hds hrest
      rw [Numeral.fraction_of_ne_nil (List.cons_ne_nil d ds), List.cons_append, List.cons_append, takeFraction,
        if_pos hd, htake, hdrop]

theorem takeExponent_append {power : Option (Bool × List Char)} {rest : List Char}
    (hpower : ∀ negative ds, power = some (negative, ds) → ds ≠ [] ∧ AllDigits ds) (hrest : Delimiter rest) :
    takeExponent (Numeral.mark power ++ rest) = (Numeral.exponent? power, rest) := by
  cases power with
  | none =>
      rw [Numeral.mark, List.nil_append]
      cases rest with
      | nil => rfl
      | cons c tail =>
          obtain ⟨-, -, he, hE⟩ := hrest c tail rfl
          exact if_neg (by simp [he, hE])
  | some power =>
      obtain ⟨negative, ds⟩ := power
      obtain ⟨hne, hdigits⟩ := hpower negative ds rfl
      obtain ⟨htake, hdrop⟩ := takeWhile_digits hdigits hrest.noDigit
      rw [Numeral.mark, List.cons_append, List.cons_append, takeExponent, if_pos (.inl rfl),
        Numeral.takeSign_mark]
      dsimp only
      rw [htake, hdrop, digits?_eq hne hdigits]
      rfl

/-! ## Numbers -/

theorem takeMinus_signed (negative : Bool) {body : List Char} (hbody : ∀ tail, body ≠ '-' :: tail) :
    takeMinus (signed negative body) = (negative, body) := by
  cases negative with
  | true => rfl
  | false => exact takeMinus.eq_2 body hbody

section Parts

variable {limit : DigitLimit} {negative : Bool} {cs body whole part : List Char} {r₁ r₂ rest : List Char}

/-- Digits with a fraction or an exponent are read as a double. -/
theorem readNumber?_double {power : Option Int} (hminus : takeMinus cs = (negative, body))
    (hwhole : takeWhole body = (whole, r₁)) (hne : whole ≠ []) (hpart : takeFraction r₁ = (part, r₂))
    (hpower : takeExponent r₂ = (power, rest)) (hdouble : part ≠ [] ∨ power.isSome = true) :
    readNumber? limit cs =
      let x := nearest ⟨Nat.ofDigitChars 10 (whole ++ part) 0, power.getD 0 - part.length⟩
      some (.ok (.float (if negative then -x else x), rest)) := by
  have hempty : ¬whole.isEmpty = true := by rwa [List.isEmpty_iff]
  have hparts : ¬(part.isEmpty = true ∧ power.isNone = true) := by
    rw [List.isEmpty_iff, not_and_or]
    exact hdouble.imp_right fun hsome hnone => by
      rw [Option.isNone_iff_eq_none.mp hnone] at hsome
      cases hsome
  simp only [readNumber?, hminus, hwhole, if_neg hempty, hpart, hpower, if_neg hparts]

/-- Digits on their own are read as an integer if they are not too many. -/
theorem readNumber?_integer (hminus : takeMinus cs = (negative, body)) (hwhole : takeWhole body = (whole, r₁))
    (hne : whole ≠ []) (hpart : takeFraction r₁ = ([], r₂)) (hpower : takeExponent r₂ = (none, rest))
    (hlimit : limit.exceeded? whole.length = none) :
    readNumber? limit cs =
      let n : Int := Nat.ofDigitChars 10 whole 0
      some (.ok (.int (if negative then -n else n), rest)) := by
  have hempty : ¬whole.isEmpty = true := by rwa [List.isEmpty_iff]
  have hparts : ([] : List Char).isEmpty = true ∧ (none : Option Int).isNone = true := ⟨rfl, rfl⟩
  simp only [readNumber?, hminus, hwhole, if_neg hempty, hpart, hpower, if_pos hparts, hlimit, List.append_nil]

end Parts

theorem ne_of_isDigit {c d : Char} (hc : c.isDigit = true) (hd : d.isDigit = false) : c ≠ d := by
  rintro rfl
  rw [hd] at hc
  cases hc

theorem ne_minus_of_digit {c : Char} (hc : c.isDigit = true) (tail other : List Char) : c :: tail ≠ '-' :: other := by
  rintro ⟨⟩
  cases hc

/-- **A numeral is read** as the double nearest to its value, however long integers may be. -/
theorem readNumber?_numeral {limit : DigitLimit} {n : Numeral} (hn : n.Valid) (negative : Bool) {rest : List Char}
    (hrest : Delimiter rest) :
    readNumber? limit (signed negative n.text ++ rest) =
      some (.ok (.float (if negative then -nearest n.value else nearest n.value), rest)) := by
  obtain ⟨d, ds, hwhole, hd⟩ := hn.exists_cons
  obtain ⟨hmark, hpoint⟩ := noDigit_mark n.power hrest
  have hne : n.whole ≠ [] := by
    rw [hwhole]
    exact List.cons_ne_nil d ds
  have hminus : takeMinus (signed negative n.text ++ rest) =
      (negative, n.whole ++ (Numeral.fraction n.part ++ (Numeral.mark n.power ++ rest))) := by
    rw [signed_append, Numeral.text, List.append_assoc, List.append_assoc]
    refine takeMinus_signed negative ?_
    rw [hwhole]
    exact ne_minus_of_digit hd _
  have hdouble : n.part ≠ [] ∨ (Numeral.exponent? n.power).isSome = true := by
    refine hn.fractional.imp_right fun hsome => ?_
    obtain ⟨⟨_, _⟩, hpower⟩ := Option.isSome_iff_exists.mp hsome
    rw [hpower]
    rfl
  rw [readNumber?_double hminus (takeWhole_append hn.whole hn.digits_whole (noDigit_fraction n.part hmark)) hne
    (takeFraction_append hn.digits_part hmark hpoint) (takeExponent_append hn.power hrest) hdouble]
  rfl

/-- The text of an integer is a sign and its digits. -/
theorem writeInt_eq (n : Int) : writeInt n = signed (decide (n < 0)) (Nat.toDigits 10 n.natAbs) := by
  unfold writeInt signed
  simp only [decide_eq_true_eq]

/-- The digits of an integer start with zero only if there is no other. -/
theorem toDigits_cases (n : Nat) :
    Nat.toDigits 10 n = ['0'] ∨ ∃ d ds, Nat.toDigits 10 n = d :: ds ∧ d ≠ '0' := by
  rcases Nat.eq_zero_or_pos n with rfl | hn
  · exact .inl (Nat.toDigits_zero 10)
  · exact .inr (exists_cons_toDigits hn)

/-- The digits of an integer after its sign make it again. -/
theorem int_of_digits (n : Int) :
    (if decide (n < 0) = true then -((Nat.ofDigitChars 10 (Nat.toDigits 10 n.natAbs) 0 : Nat) : Int)
      else (Nat.ofDigitChars 10 (Nat.toDigits 10 n.natAbs) 0 : Nat)) = n := by
  rw [Nat.ofDigitChars_ten_toDigits]
  split
  case isTrue hneg =>
    have hneg : n < 0 := of_decide_eq_true hneg
    omega
  case isFalse hneg =>
    have hneg : ¬n < 0 := fun h => hneg (decide_eq_true h)
    omega

/-- **An integer is read back** unless it is too long. -/
theorem readNumber?_writeInt {limit : DigitLimit} {n : Int} (hn : exceededBy? limit (.int n) = none)
    {rest : List Char} (hrest : Delimiter rest) :
    readNumber? limit (writeInt n ++ rest) = some (.ok (.int n, rest)) := by
  have hdigits := allDigits_toDigits n.natAbs
  have hminus : takeMinus (writeInt n ++ rest) = (decide (n < 0), Nat.toDigits 10 n.natAbs ++ rest) := by
    rw [writeInt_eq, signed_append]
    refine takeMinus_signed _ ?_
    obtain ⟨d, ds, hds, hd⟩ := exists_digit_toDigits n.natAbs
    rw [hds]
    exact ne_minus_of_digit hd _
  have hpart : takeFraction rest = ([], rest) :=
    takeFraction_append (List.forall_mem_nil _) hrest.noDigit fun tail h => (hrest '.' tail h).2.1 rfl
  have hpower : takeExponent rest = (none, rest) := @takeExponent_append none rest nofun hrest
  rw [readNumber?_integer hminus (takeWhole_append (toDigits_cases _) hdigits hrest.noDigit) Nat.toDigits_ne_nil
    hpart hpower hn]
  dsimp only
  rw [int_of_digits]

/-! ## Scalars -/

theorem words_eq : words =
    [(['n', 'u', 'l', 'l'], .null), (['t', 'r', 'u', 'e'], .bool true), (['f', 'a', 'l', 's', 'e'], .bool false),
     (['N', 'a', 'N'], .float (0.0 / 0.0)), (['I', 'n', 'f', 'i', 'n', 'i', 't', 'y'], .float infinity),
     (['-', 'I', 'n', 'f', 'i', 'n', 'i', 't', 'y'], .float (-infinity))] := rfl

/-- No word starts like a number. -/
theorem readWord?_number {c : Char} (hc : c.isDigit = true) (negative : Bool) (tail : List Char) :
    readWord? (signed negative (c :: tail)) = none := by
  have hne (d : Char) (hd : d.isDigit = false) : d ≠ c := (ne_of_isDigit hc hd).symm
  unfold readWord? signed
  rw [words_eq]
  cases negative with
  | false => simp [hne 'n' rfl, hne 't' rfl, hne 'f' rfl, hne 'N' rfl, hne 'I' rfl, hne '-' rfl]
  | true => simp [hne 'I' rfl]

/-- A word is read, whatever stands after it. -/
theorem readScalar_word {limit : DigitLimit} {word : List Char} {value : Json} (h : (word, value) ∈ words)
    (rest : List Char) : readScalar limit (word ++ rest) = .ok (value, rest) := by
  have hword : readWord? (word ++ rest) = some (value, rest) := by
    unfold readWord?
    rw [words_eq] at h ⊢
    simp only [List.mem_cons, List.not_mem_nil, or_false, Prod.mk.injEq] at h
    rcases h with ⟨rfl, rfl⟩ | ⟨rfl, rfl⟩ | ⟨rfl, rfl⟩ | ⟨rfl, rfl⟩ | ⟨rfl, rfl⟩ | ⟨rfl, rfl⟩ <;> rfl
  unfold readScalar
  rw [hword]

/-- A number is read as a scalar. -/
theorem readScalar_of_readNumber? {limit : DigitLimit} {c : Char} (hc : c.isDigit = true) {negative : Bool}
    {tail rest : List Char} {value : Json}
    (h : readNumber? limit (signed negative (c :: tail)) = some (.ok (value, rest))) :
    readScalar limit (signed negative (c :: tail)) = .ok (value, rest) := by
  unfold readScalar
  rw [readWord?_number hc, h]
  rfl

/-- What has to hold of a scalar for its text to be read back: an integer is not too long, and a finite double is
what its text is as a number. -/
def ReadsBack (limit : DigitLimit) : Json → Prop
  | .int n => exceededBy? limit (.int n) = none
  | .float x => x.isFinite = true → Text.number? (numberStyle.write x) = some x
  | _ => True

instance (limit : DigitLimit) : (s : Json) → Decidable (ReadsBack limit s)
  | .int n => inferInstanceAs (Decidable (exceededBy? limit (.int n) = none))
  | .float x => inferInstanceAs (Decidable (x.isFinite = true → Text.number? (numberStyle.write x) = some x))
  | .null | .bool _ | .str _ | .arr _ | .obj _ => isTrue trivial

/-- The characters with which words and numbers begin. -/
def ScalarStart (c : Char) : Prop := c.isDigit = true ∨ c ∈ ['-', 'n', 't', 'f', 'N', 'I']

/-- **A double is read back** as a scalar if a finite one is what its text is as a number. -/
theorem readScalar_float {limit : DigitLimit} {x : Float} (hx : ReadsBack limit (.float x)) {rest : List Char}
    (hrest : Delimiter rest) : readScalar limit (numberStyle.write x ++ rest) = .ok (.float x, rest) := by
  rcases write_cases x with ⟨rfl, htext⟩ | ⟨negative, rfl, htext⟩ | ⟨hfinite, negative, n, hn, htext⟩
  · rw [htext]
    exact readScalar_word (by decide) rest
  · rw [htext]
    cases negative <;> exact readScalar_word (by decide) rest
  · have hvalue := hx hfinite
    rw [htext, Text.number?_numeral hn, Option.some.injEq] at hvalue
    obtain ⟨d, ds, hds, hd⟩ := hn.exists_cons
    have hread : readNumber? limit (signed negative n.text ++ rest) = some (.ok (.float x, rest)) := by
      rw [readNumber?_numeral hn negative hrest, hvalue]
    rw [htext]
    rw [Numeral.text, hds, List.cons_append, signed_append, List.cons_append] at hread ⊢
    exact readScalar_of_readNumber? hd hread

/-- **An integer is read back** as a scalar if it is not too long. -/
theorem readScalar_int {limit : DigitLimit} {n : Int} (hn : ReadsBack limit (.int n)) {rest : List Char}
    (hrest : Delimiter rest) : readScalar limit (writeInt n ++ rest) = .ok (.int n, rest) := by
  have hread := readNumber?_writeInt hn hrest
  obtain ⟨d, ds, hds, hd⟩ := exists_digit_toDigits n.natAbs
  rw [writeInt_eq, hds, signed_append, List.cons_append] at hread ⊢
  exact readScalar_of_readNumber? hd hread

theorem scalarStart_signed {c : Char} (hc : ScalarStart c) (negative : Bool) (text : List Char) :
    ∃ d tail, signed negative (c :: text) = d :: tail ∧ ScalarStart d := by
  cases negative with
  | true => exact ⟨'-', c :: text, rfl, .inr (by decide)⟩
  | false => exact ⟨c, text, rfl, hc⟩

theorem scalarStart_float (x : Float) : ∃ c tail, numberStyle.write x = c :: tail ∧ ScalarStart c := by
  rcases write_cases x with ⟨-, htext⟩ | ⟨negative, -, htext⟩ | ⟨-, negative, n, hn, htext⟩
  · exact ⟨_, _, htext, .inr (by decide)⟩
  · rw [htext]
    exact scalarStart_signed (.inr (by decide)) negative _
  · obtain ⟨d, ds, hds, hd⟩ := hn.exists_cons
    rw [htext, Numeral.text, hds]
    exact scalarStart_signed (.inl hd) negative _

theorem scalarStart_int (n : Int) : ∃ c tail, writeInt n = c :: tail ∧ ScalarStart c := by
  obtain ⟨d, ds, hds, hd⟩ := exists_digit_toDigits n.natAbs
  rw [writeInt_eq, hds]
  exact scalarStart_signed (.inl hd) _ _

end TradingRules.Json
