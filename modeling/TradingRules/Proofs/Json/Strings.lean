import TradingRules.Json.Printer
import TradingRules.Json.Reader

/-!
# `Proofs.Json.Strings` — text in quotes read back

A character is written as itself, as a backslash and a letter, or as a backslash and its code in digits, and each
is read back from that. Digits need a character after them: in quotes there always is one. What is read are code
units, and since no character is half a pair they make the characters that were written: `readString_written`.

## Contents
* `writeChar_cases` — how a character is written;
* `readUnits_writeChar`, `readUnits_written` — characters read back as code units;
* `joinUnits_map_toNat`, `readString_written` — text read back.
-/

namespace TradingRules.Json

/-- **How a character is written**: with a letter, with digits, or as it is. -/
theorem writeChar_cases (c : Char) :
    (∃ e, e ≠ 'u' ∧ escaped? e = some c ∧ writeChar c = ['\\', e]) ∨
    (c.toNat < 0x20 ∧ writeChar c =
      ['\\', 'u', '0', '0', Nat.digitChar (c.toNat / 16), Nat.digitChar (c.toNat % 16)]) ∨
    (c ≠ '"' ∧ c ≠ '\\' ∧ ¬c.toNat < 0x20 ∧ writeChar c = [c]) := by
  by_cases hnamed : c ∈ ['"', '\\', '\n', '\r', '\t', '\x08', '\x0c']
  · left
    simp only [List.mem_cons, List.not_mem_nil, or_false] at hnamed
    rcases hnamed with rfl | rfl | rfl | rfl | rfl | rfl | rfl
    · exact ⟨'"', by decide⟩
    · exact ⟨'\\', by decide⟩
    · exact ⟨'n', by decide⟩
    · exact ⟨'r', by decide⟩
    · exact ⟨'t', by decide⟩
    · exact ⟨'b', by decide⟩
    · exact ⟨'f', by decide⟩
  · right
    simp only [List.mem_cons, List.not_mem_nil, or_false, not_or] at hnamed
    obtain ⟨hquote, hbackslash, hnewline, hreturn, htab, hbackspace, hfeed⟩ := hnamed
    simp only [writeChar, if_neg hquote, if_neg hbackslash, if_neg hnewline, if_neg hreturn, if_neg htab,
      if_neg hbackspace, if_neg hfeed]
    by_cases hcontrol : c.toNat < 0x20
    · exact .inl ⟨hcontrol, if_pos hcontrol⟩
    · exact .inr ⟨hquote, hbackslash, hcontrol, if_neg hcontrol⟩

theorem codeUnit_digitChar {n : Nat} (h : n < 0x20) :
    codeUnit? '0' '0' (Nat.digitChar (n / 16)) (Nat.digitChar (n % 16)) = some n := by
  revert n
  decide

/-- **A character is read back** from what was written of it, if a character comes after it. -/
theorem readUnits_writeChar (opening : Nat) (c next : Char) (tail : List Char) :
    readUnits opening (writeChar c ++ next :: tail) =
      (readUnits opening (next :: tail)).map fun (units, rest) => (c.toNat :: units, rest) := by
  rcases writeChar_cases c with ⟨e, hletter, hescaped, hwrite⟩ | ⟨hcontrol, hwrite⟩ |
    ⟨hquote, hbackslash, hcontrol, hwrite⟩
  · rw [hwrite, List.cons_append, List.singleton_append, readUnits]
    · rw [hescaped]
    · exact fun _ _ _ _ _ _ h _ => hletter h
    · exact hletter
  · rw [hwrite]
    simp only [List.cons_append, List.nil_append]
    rw [readUnits, codeUnit_digitChar hcontrol]
  · rw [hwrite, List.singleton_append, readUnits, if_neg hcontrol]
    all_goals simp_all

/-- Written text is read back as the codes of its characters, up to its closing quote. -/
theorem readUnits_written (opening : Nat) (cs rest : List Char) :
    readUnits opening (cs.flatMap writeChar ++ '"' :: rest) = .ok (cs.map Char.toNat, rest) := by
  induction cs with
  | nil => rw [List.flatMap_nil, List.nil_append, readUnits, List.map_nil]
  | cons c cs ih =>
      -- whatever is written after the character begins with some character
      obtain ⟨next, tail, hnext⟩ : ∃ next tail, cs.flatMap writeChar ++ '"' :: rest = next :: tail :=
        List.exists_cons_of_ne_nil (List.append_ne_nil_of_right_ne_nil _ (List.cons_ne_nil _ _))
      rw [List.flatMap_cons, List.append_assoc, hnext, readUnits_writeChar, ← hnext, ih]
      rfl

/-- The code of a character is no half of a pair. -/
theorem isHalf_toNat (c : Char) : isHighHalf c.toNat = false ∧ isLowHalf c.toNat = false := by
  have hvalid : c.toNat < 0xD800 ∨ (0xDFFF < c.toNat ∧ c.toNat < 0x110000) := c.valid
  unfold isHighHalf isLowHalf
  simp only [Bool.and_eq_false_iff, decide_eq_false_iff_not]
  omega

theorem unitChar_toNat (c : Char) : unitChar c.toNat = c := by
  obtain ⟨hhigh, hlow⟩ := isHalf_toNat c
  unfold unitChar
  rw [hhigh, hlow]
  exact Char.ofNat_toNat c

/-- The codes of characters make these characters again. -/
theorem joinUnits_map_toNat (cs : List Char) : joinUnits (cs.map Char.toNat) = cs := by
  induction cs with
  | nil => rfl
  | cons c cs ih =>
      cases cs with
      | nil => rw [List.map_cons, List.map_nil, joinUnits, unitChar_toNat]
      | cons d cs =>
          rw [List.map_cons, List.map_cons, joinUnits, (isHalf_toNat c).1, Bool.false_and, unitChar_toNat]
          rw [List.map_cons] at ih
          rw [if_neg Bool.false_ne_true, ih]

/-- **Text is read back** up to its closing quote. -/
theorem readString_written (s : String) (rest : List Char) :
    readString (s.toList.flatMap writeChar ++ '"' :: rest) = .ok (s, rest) := by
  unfold readString
  rw [readUnits_written]
  show Except.ok (String.ofList (joinUnits (s.toList.map Char.toNat)), rest) = _
  rw [joinUnits_map_toNat, String.ofList_toList]

end TradingRules.Json
