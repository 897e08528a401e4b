import Mathlib.Data.List.DropRight
import TradingRules.Json.Printer
import TradingRules.Text.Numeral

/-!
# `Proofs.Decimal.Numeral` — the text of a double

However a double is laid out, its text is a numeral of one form: digits that start with zero only if there is no
other before the point, a point with digits after it or none, and an exponent or none; at least one of the two is
there, which tells a double from an integer. Readers are proved against numerals, and know nothing of layouts.

## Contents
* `AllDigits` — runs of digits, and what is taken off the front of a text that starts with one;
* `Numeral` — the form, with its text and its value;
* `Delimiter` — what may follow a numeral;
* `eq_nan_of_shape`, `eq_infinity_of_shape` — the doubles that are no finite numbers;
* `exists_numeral_layout`, `write_cases` — how a double is written.
-/

namespace TradingRules.Decimal

/-! ## Runs of digits -/

/-- All characters are digits. -/
def AllDigits (cs : List Char) : Prop := ∀ c ∈ cs, c.isDigit = true

/-- The text does not start with a digit. -/
def NoDigit (cs : List Char) : Prop := ∀ c rest, cs = c :: rest → c.isDigit = false

theorem takeWhile_digits {ds rest : List Char} (hds : AllDigits ds) (hrest : NoDigit rest) :
    (ds ++ rest).takeWhile Char.isDigit = ds ∧ (ds ++ rest).dropWhile Char.isDigit = rest := by
  induction ds with
  | nil =>
      cases rest with
      | nil => exact ⟨rfl, rfl⟩
      | cons c rest =>
          have hc : c.isDigit = false := hrest c rest rfl
          rw [List.nil_append, List.takeWhile_cons, List.dropWhile_cons, hc]
          exact ⟨rfl, rfl⟩
  | cons d ds ih =>
      obtain ⟨htake, hdrop⟩ := ih fun c hc => hds c (List.mem_cons_of_mem _ hc)
      have hd : d.isDigit = true := hds d List.mem_cons_self
      rw [List.cons_append, List.takeWhile_cons, List.dropWhile_cons, hd, if_pos rfl, if_pos rfl, htake, hdrop]
      exact ⟨rfl, rfl⟩

theorem digits?_eq {ds : List Char} (hne : ds ≠ []) (hdigits : AllDigits ds) :
    Text.digits? ds = some (Nat.ofDigitChars 10 ds 0) := by
  unfold Text.digits?
  rw [if_pos]
  simp [hne, List.all_eq_true.mpr hdigits]

theorem allDigits_toDigits (n : Nat) : AllDigits (Nat.toDigits 10 n) :=
  fun _ hc => Nat.isDigit_of_mem_toDigits (by decide) (by decide) hc

theorem exists_digit_toDigits (n : Nat) : ∃ d ds, Nat.toDigits 10 n = d :: ds ∧ d.isDigit = true := by
  obtain ⟨d, ds, hds⟩ := List.exists_cons_of_ne_nil (Nat.toDigits_ne_nil (n := n) (b := 10))
  refine ⟨d, ds, hds, allDigits_toDigits n d ?_⟩
  rw [hds]
  exact List.mem_cons_self

theorem AllDigits.append {cs ds : List Char} (hcs : AllDigits cs) (hds : AllDigits ds) : AllDigits (cs ++ ds) :=
  List.forall_mem_append.mpr ⟨hcs, hds⟩

theorem allDigits_zeros (n : Nat) : AllDigits (List.replicate n '0') := by
  intro c hc
  rw [(List.mem_replicate.mp hc).2]
  rfl

/-- The digits of a positive number do not start with zero. -/
theorem digitChar_ne_zero {n : Nat} (h : n < 10) (hpos : 0 < n) : Nat.digitChar n ≠ '0' := by
  revert n
  decide

theorem exists_cons_toDigits {n : Nat} (h : 0 < n) : ∃ d ds, Nat.toDigits 10 n = d :: ds ∧ d ≠ '0' := by
  induction n using Nat.strongRecOn with
  | ind n ih =>
      by_cases hsmall : n < 10
      · exact ⟨Nat.digitChar n, [], Nat.toDigits_of_lt_base hsmall, digitChar_ne_zero hsmall h⟩
      · obtain ⟨d, ds, hds, hd⟩ := ih (n / 10) (by omega) (by omega)
        refine ⟨d, ds ++ [Nat.digitChar (n % 10)], ?_, hd⟩
        rw [Nat.toDigits_of_base_le (by decide) (by omega), hds, List.cons_append]

/-! ## Numerals -/

/-- The parts of a double's text: the digits before the point, those after it, and the sign and the digits of the
exponent. -/
structure Numeral where
  whole : List Char
  part : List Char
  power : Option (Bool × List Char)

namespace Numeral

/-- The point and the digits after it. -/
def fraction : List Char → List Char
  | [] => []
  | part => '.' :: part

/-- The exponent with its mark. -/
def mark : Option (Bool × List Char) → List Char
  | none => []
  | some (negative, ds) => 'e' :: (if negative then '-' else '+') :: ds

theorem fraction_of_ne_nil {part : List Char} (h : part ≠ []) : fraction part = '.' :: part := by
  cases part with
  | nil => exact absurd rfl h
  | cons c part => rfl

theorem takeSign_mark (negative : Bool) (rest : List Char) :
    Text.takeSign ((if negative then '-' else '+') :: rest) = (negative, rest) := by
  cases negative <;> rfl

/-- The text of a numeral. -/
def text (n : Numeral) : List Char := n.whole ++ (fraction n.part ++ mark n.power)

/-- The exponent as a number. -/
def exponent? : Option (Bool × List Char) → Option Int
  | none => none
  | some (negative, ds) =>
    let k := Nat.ofDigitChars 10 ds 0
    some (if negative then -(k : Int) else k)

/-- The decimal that a numeral is. -/
def value (n : Numeral) : Decimal :=
  ⟨Nat.ofDigitChars 10 (n.whole ++ n.part) 0, (exponent? n.power).getD 0 - n.part.length⟩

/-- The form of numerals: no zero stands before another digit ahead of the point, and there is a point or an
exponent. -/
structure Valid (n : Numeral) : Prop where
  whole : n.whole = ['0'] ∨ ∃ d ds, n.whole = d :: ds ∧ d ≠ '0'
  digits_whole : AllDigits n.whole
  digits_part : AllDigits n.part
  power : ∀ negative ds, n.power = some (negative, ds) → ds ≠ [] ∧ AllDigits ds
  fractional : n.part ≠ [] ∨ n.power.isSome = true

/-- A numeral starts with a digit. -/
theorem Valid.exists_cons {n : Numeral} (h : n.Valid) : ∃ d ds, n.whole = d :: ds ∧ d.isDigit = true := by
  rcases h.whole with hzero | ⟨d, ds, hwhole, -⟩
  · exact ⟨'0', [], hzero, rfl⟩
  · refine ⟨d, ds, hwhole, h.digits_whole d ?_⟩
    rw [hwhole]
    exact List.mem_cons_self

end Numeral

/-! ## After a numeral -/

/-- The text does not go on with what could belong to a number. -/
def Delimiter (rest : List Char) : Prop :=
  ∀ c tail, rest = c :: tail → c.isDigit = false ∧ c ≠ '.' ∧ c ≠ 'e' ∧ c ≠ 'E'

theorem Delimiter.noDigit {rest : List Char} (h : Delimiter rest) : NoDigit rest :=
  fun c tail hrest => (h c tail hrest).1

theorem delimiter_nil : Delimiter [] := nofun

theorem delimiter_cons {c : Char} (h : c.isDigit = false ∧ c ≠ '.' ∧ c ≠ 'e' ∧ c ≠ 'E') (rest : List Char) :
    Delimiter (c :: rest) := by
  rintro d tail ⟨⟩
  exact h

/-- What follows the digits after the point is no digit and no point. -/
theorem noDigit_mark (power : Option (Bool × List Char)) {rest : List Char} (hrest : Delimiter rest) :
    NoDigit (Numeral.mark power ++ rest) ∧ ∀ tail, Numeral.mark power ++ rest ≠ '.' :: tail := by
  cases power with
  | none => exact ⟨hrest.noDigit, fun tail h => (hrest '.' tail h).2.1 rfl⟩
  | some power =>
      constructor
      · rintro c tail ⟨⟩
        rfl
      · rintro tail ⟨⟩

theorem noDigit_fraction (part : List Char) {rest : List Char} (hrest : NoDigit rest) :
    NoDigit (Numeral.fraction part ++ rest) := by
  cases part with
  | nil => exact hrest
  | cons d ds =>
      rintro c tail ⟨⟩
      rfl

/-! ## Special doubles -/

section Special

open Float.Model

variable {x : Float}

/-- A double is known by its bits. -/
theorem eq_of_toBits {x y : Float} (h : x.toBits.toNat = y.toBits.toNat) : x = y := by
  obtain ⟨⟨b, hb⟩⟩ := x
  obtain ⟨⟨c, hc⟩⟩ := y
  cases UInt64.toNat_inj.mp h
  rfl

theorem unpackExponent_toNat (b : BitVec 64) :
    (@UnpackedFloat.unpackExponent Format.binary64 b).toNat = b.toNat / Nat.pow 2 52 % 2048 := by
  unfold UnpackedFloat.unpackExponent
  simp [BitVec.extractLsb, BitVec.extractLsb', Nat.shiftRight_eq_div_pow]

theorem unpackMantissa_toNat (b : BitVec 64) :
    (@UnpackedFloat.unpackMantissa Format.binary64 b).toNat = b.toNat % Nat.pow 2 52 := by
  unfold UnpackedFloat.unpackMantissa
  simp [BitVec.extractLsb, BitVec.extractLsb', Nat.shiftRight_eq_div_pow]

/-- The exponent is the greatest one in the fields of a double if it is in its bits. -/
theorem unpackExponent_eq (b : BitVec 64) :
    @UnpackedFloat.unpackExponent Format.binary64 b = -1#11 ↔ b.toNat / Nat.pow 2 52 % 2048 = 2047 := by
  rw [← BitVec.toNat_inj, unpackExponent_toNat]
  rfl

/-- There is one double that is no number. -/
theorem eq_nan_of_shape (h : Shape.of x = .nan) : x = 0.0 / 0.0 := by
  unfold Shape.of Shape.ofFields at h
  dsimp only at h
  split at h
  case isFalse => split at h <;> cases h
  case isTrue hexponent =>
    split at h
    case isTrue => cases h
    case isFalse hfraction =>
      have hmantissa : @UnpackedFloat.unpackMantissa Format.binary64 x.toBits.toBitVec ≠ 0#52 := by
        rw [Ne, ← BitVec.toNat_inj, unpackMantissa_toNat]
        exact hfraction
      have hbits := x.toModel.valid.eq_packedNaN ((unpackExponent_eq _).mpr hexponent) hmantissa
      refine eq_of_toBits (congrArg BitVec.toNat ?_)
      have hnan : (0.0 / 0.0 : Float).toBits.toBitVec = UnpackedFloat.packedNaN Format.binary64 := by decide +kernel
      rw [hnan]
      exact hbits

/-- There are two infinite doubles. -/
theorem eq_infinity_of_shape {negative : Bool} (h : Shape.of x = .infinite negative) :
    x = if negative then -infinity else infinity := by
  unfold Shape.of Shape.ofFields at h
  dsimp only at h
  split at h
  case isFalse => split at h <;> cases h
  case isTrue hexponent =>
    split at h
    case isFalse => cases h
    case isTrue hfraction =>
      have hlt := x.toBits.toNat_lt
      have hpositive : infinity.toBits.toNat = 0x7FF0000000000000 := by decide +kernel
      have hnegative : (-infinity).toBits.toNat = 0xFFF0000000000000 := by decide +kernel
      refine eq_of_toBits ?_
      cases negative with
      | true =>
          have hsign : x.toBits.toNat / Nat.pow 2 63 = 1 := by simpa using h
          rw [if_pos rfl, hnegative]
          simp only [Nat.pow_eq] at hexponent hfraction hsign
          omega
      | false =>
          have hsign : ¬x.toBits.toNat / Nat.pow 2 63 = 1 := by simpa using h
          rw [if_neg Bool.false_ne_true, hpositive]
          simp only [Nat.pow_eq] at hexponent hfraction hsign
          omega

/-- Every other double is finite. -/
theorem isFinite_of_shape {negative : Bool} {size : Dyadic} (h : Shape.of x = .finite negative size) :
    x.isFinite = true := by
  have hexponent : x.toBits.toNat / Nat.pow 2 52 % 2048 ≠ 2047 := by
    intro hexponent
    unfold Shape.of Shape.ofFields at h
    rw [if_pos hexponent] at h
    split at h <;> cases h
  show (UnpackedFloat.unpack Format.binary64 x.toBits.toBitVec).isFinite = true
  have hunpack : ¬ @UnpackedFloat.unpackExponent Format.binary64 x.toBits.toBitVec = -1#11 :=
    fun heq => hexponent ((unpackExponent_eq _).mp heq)
  unfold UnpackedFloat.unpack
  dsimp only
  rw [if_neg hunpack]
  by_cases hsubnormal : @UnpackedFloat.unpackExponent Format.binary64 x.toBits.toBitVec = 0#11
  · rw [if_pos hsubnormal]
    by_cases hzero : @UnpackedFloat.unpackMantissa Format.binary64 x.toBits.toBitVec = 0#52
    · rw [dif_pos hzero]
      rfl
    · rw [dif_neg hzero]
      rfl
  · rw [if_neg hsubnormal]
    rfl

end Special

/-! ## Layouts -/

/-- The significant digits of a positive number are digits of it and do not start with zero. -/
theorem exists_cons_significant {n : Nat} (h : 0 < n) :
    ∃ d ds, significant (Nat.toDigits 10 n) = d :: ds ∧ d ≠ '0' ∧ AllDigits (d :: ds) := by
  obtain ⟨d, ds, hdigits, hd⟩ := exists_cons_toDigits h
  have hprefix : (d :: ds).rdropWhile (· = '0') <+: d :: ds := List.rdropWhile_prefix _ _
  have hsignificant : significant (d :: ds) = (d :: ds).rdropWhile (· = '0') := by
    unfold significant
    split
    case h_2 => rfl
    case h_1 hnil =>
      -- not all of the digits are zeros
      have hall := List.rdropWhile_eq_nil_iff.mp hnil d List.mem_cons_self
      exact absurd (of_decide_eq_true hall) hd
  cases hkept : (d :: ds).rdropWhile (· = '0') with
  | nil =>
      have hall := List.rdropWhile_eq_nil_iff.mp hkept d List.mem_cons_self
      exact absurd (of_decide_eq_true hall) hd
  | cons k ks =>
      rw [hkept] at hprefix hsignificant
      obtain ⟨rfl, -⟩ := List.cons_prefix_cons.mp hprefix
      refine ⟨k, ks, by rw [hdigits, hsignificant], hd, ?_⟩
      intro c hc
      refine allDigits_toDigits n c ?_
      rw [hdigits]
      exact hprefix.subset hc

theorem exponentMark_eq (e : Int) :
    ∃ ds, exponentMark e = Numeral.mark (some (decide (e < 0), ds)) ∧ ds ≠ [] ∧ AllDigits ds := by
  refine ⟨if (Nat.toDigits 10 e.natAbs).length < 2 then '0' :: Nat.toDigits 10 e.natAbs
    else Nat.toDigits 10 e.natAbs, ?_, ?_, ?_⟩
  · unfold exponentMark Numeral.mark
    simp only [decide_eq_true_eq]
  · split
    · exact List.cons_ne_nil _ _
    · exact Nat.toDigits_ne_nil
  · split
    · exact List.forall_mem_cons.mpr ⟨rfl, allDigits_toDigits _⟩
    · exact allDigits_toDigits _

section Layout

open Json (numberStyle)

variable {d : Char} {ds : List Char}

/-- Digits in scientific layout are a numeral. -/
theorem exists_numeral_scientific (hd : d ≠ '0') (hds : AllDigits (d :: ds)) (lead : Int) :
    ∃ n : Numeral, n.Valid ∧ Style.scientific (d :: ds) lead = n.text := by
  obtain ⟨es, hmark, hes, hdigits⟩ := exponentMark_eq lead
  obtain ⟨hfirst, hrest⟩ := List.forall_mem_cons.mp hds
  refine ⟨⟨[d], ds, some (decide (lead < 0), es)⟩, ?valid, ?text⟩
  case valid =>
    refine ⟨.inr ⟨d, [], rfl, hd⟩, List.forall_mem_singleton.mpr hfirst, hrest, ?_, .inr rfl⟩
    rintro negative es' ⟨⟩
    exact ⟨hes, hdigits⟩
  case text =>
    unfold Numeral.text
    rw [← hmark]
    cases ds with
    | nil => rfl
    | cons e ds => rfl

/-- Digits in positional layout are a numeral. -/
theorem exists_numeral_positional (hd : d ≠ '0') (hds : AllDigits (d :: ds)) (lead : Int) :
    ∃ n : Numeral, n.Valid ∧ numberStyle.positional (d :: ds) lead = n.text := by
  unfold Style.positional
  split
  case isTrue hlead =>
    have hpart : List.replicate (-lead - 1).toNat '0' ++ d :: ds ≠ [] :=
      List.append_ne_nil_of_right_ne_nil _ (List.cons_ne_nil _ _)
    refine ⟨⟨['0'], List.replicate (-lead - 1).toNat '0' ++ d :: ds, none⟩, ?valid, ?text⟩
    case valid =>
      exact ⟨.inl rfl, List.forall_mem_singleton.mpr rfl, (allDigits_zeros _).append hds, nofun, .inl hpart⟩
    case text =>
      unfold Numeral.text Numeral.mark
      rw [Numeral.fraction_of_ne_nil hpart, List.append_nil]
      rfl
  case isFalse hlead =>
    dsimp only
    split
    case isTrue hshort =>
      refine ⟨⟨d :: ds ++ List.replicate (lead.toNat + 1 - (d :: ds).length) '0', ['0'], none⟩, ?valid, rfl⟩
      case valid =>
        exact ⟨.inr ⟨d, _, rfl, hd⟩, hds.append (allDigits_zeros _), List.forall_mem_singleton.mpr rfl, nofun,
          .inl (List.cons_ne_nil _ _)⟩
    case isFalse hlong =>
      have hpart : (d :: ds).drop (lead.toNat + 1) ≠ [] := by
        rw [Ne, List.drop_eq_nil_iff]
        exact hlong
      refine ⟨⟨(d :: ds).take (lead.toNat + 1), (d :: ds).drop (lead.toNat + 1), none⟩, ?valid, ?text⟩
      case valid =>
        exact ⟨.inr ⟨d, ds.take lead.toNat, rfl, hd⟩, fun c hc => hds c (List.mem_of_mem_take hc),
          fun c hc => hds c (List.mem_of_mem_drop hc), nofun, .inl hpart⟩
      case text =>
        unfold Numeral.text Numeral.mark
        rw [Numeral.fraction_of_ne_nil hpart, List.append_nil]

/-- **Every decimal is laid out as a numeral.** -/
theorem exists_numeral_layout (d : Decimal) : ∃ n : Numeral, n.Valid ∧ numberStyle.layout d = n.text := by
  by_cases hzero : d.coefficient = 0
  · refine ⟨⟨['0'], ['0'], none⟩, ?valid, ?text⟩
    case valid =>
      exact ⟨.inl rfl, List.forall_mem_singleton.mpr rfl, List.forall_mem_singleton.mpr rfl, nofun,
        .inl (List.cons_ne_nil _ _)⟩
    case text =>
      have hdigits : significant d.digits = ['0'] := by
        unfold digits
        rw [hzero, Nat.toDigits_zero]
        rfl
      unfold Style.layout
      rw [hdigits, if_pos hzero]
      rfl
  · obtain ⟨c, cs, hcs, hc, hdigits⟩ := exists_cons_significant (Nat.pos_of_ne_zero hzero)
    unfold Style.layout digits
    dsimp only
    rw [hcs, if_neg hzero]
    split
    · exact exists_numeral_positional hc hdigits _
    · exact exists_numeral_scientific hc hdigits _

/-- A minus sign before the text of a negative number. -/
def signed (negative : Bool) (text : List Char) : List Char := if negative then '-' :: text else text

/-- The characters of numerals and their signs. -/
def NumeralChar (c : Char) : Prop := c.isDigit = true ∨ c ∈ ['.', 'e', '+', '-']

theorem Numeral.Valid.numeralChar {n : Numeral} (h : n.Valid) : ∀ c ∈ n.text, NumeralChar c := by
  have hdigits {ds : List Char} (hds : AllDigits ds) : ∀ c ∈ ds, NumeralChar c := fun c hc => .inl (hds c hc)
  have hfraction : ∀ c ∈ fraction n.part, NumeralChar c := by
    cases hpart : n.part with
    | nil => exact List.forall_mem_nil _
    | cons d ds =>
        have hds : AllDigits (d :: ds) := hpart ▸ h.digits_part
        exact List.forall_mem_cons.mpr ⟨.inr (by decide), hdigits hds⟩
  have hmark : ∀ c ∈ mark n.power, NumeralChar c := by
    cases hpower : n.power with
    | none => exact List.forall_mem_nil _
    | some power =>
        obtain ⟨negative, ds⟩ := power
        refine List.forall_mem_cons.mpr ⟨.inr (by decide), List.forall_mem_cons.mpr ⟨?_, ?_⟩⟩
        · cases negative <;> exact .inr (by decide)
        · exact hdigits (h.power negative ds hpower).2
  exact List.forall_mem_append.mpr ⟨hdigits h.digits_whole, List.forall_mem_append.mpr ⟨hfraction, hmark⟩⟩

theorem numeralChar_signed {text : List Char} (h : ∀ c ∈ text, NumeralChar c) (negative : Bool) :
    ∀ c ∈ signed negative text, NumeralChar c := by
  cases negative with
  | true => exact List.forall_mem_cons.mpr ⟨.inr (by decide), h⟩
  | false => exact h

theorem signed_append (negative : Bool) (text rest : List Char) :
    signed negative text ++ rest = signed negative (text ++ rest) := by
  cases negative <;> rfl

/-- **How a double is written**: as a word, or as a sign and a numeral. -/
theorem write_cases (x : Float) :
    (x = 0.0 / 0.0 ∧ numberStyle.write x = ['N', 'a', 'N']) ∨
    (∃ negative, x = (if negative then -infinity else infinity) ∧
      numberStyle.write x = signed negative ['I', 'n', 'f', 'i', 'n', 'i', 't', 'y']) ∨
    (x.isFinite = true ∧ ∃ (negative : Bool) (n : Numeral), n.Valid ∧
      numberStyle.write x = signed negative n.text) := by
  unfold Style.write
  cases hshape : Shape.of x with
  | nan => exact .inl ⟨eq_nan_of_shape hshape, rfl⟩
  | infinite negative => exact .inr (.inl ⟨negative, eq_infinity_of_shape hshape, rfl⟩)
  | finite negative size =>
      obtain ⟨n, hvalid, htext⟩ := exists_numeral_layout size.shortest
      refine .inr (.inr ⟨isFinite_of_shape hshape, negative, n, hvalid, ?_⟩)
      rw [← htext]
      rfl

end Layout

end TradingRules.Decimal
