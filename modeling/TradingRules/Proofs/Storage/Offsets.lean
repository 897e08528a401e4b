import TradingRules.Condition.Decode
import TradingRules.Condition.Wire
import TradingRules.Proofs.Checked

/-!
# `Proofs.Storage.Offsets` — offsets are stored as they were given

An offset may be given as text, as a truth value, as a double or not at all. It is stored as the integer that it
counts as, and a leaf whose offset counts as none from 0 to 4 is not read at all: no offset is moved into its bounds.

## Contents
* `Leaf.read_offset` — the offsets of a leaf are those that were read;
* `OffsetAsGiven`, `Condition.offsetAsGiven_of_ofJson`.
-/

namespace TradingRules

/-! ## Leaves -/

variable {fields : List (String × Json)}

theorem Threshold.read_index {t : Threshold} (h : Threshold.read fields = .ok t) :
    Key.index.read Offset.current readOffset fields = .ok t.index := by
  obtain ⟨_, _, hvalue, hindex, ht⟩ := Checked.seq_eq_ok.mp h
  obtain ⟨_, _, hoperator, -, rfl⟩ := Checked.seq_eq_ok.mp hvalue
  obtain ⟨_, _, hfield, -, rfl⟩ := Checked.seq_eq_ok.mp hoperator
  obtain ⟨_, _, hindicator, -, rfl⟩ := Checked.seq_eq_ok.mp hfield
  obtain ⟨_, -, rfl⟩ := Checked.map_eq_ok.mp hindicator
  rw [hindex, ← ht]

theorem Cross.read_offsets {c : Cross} (h : Cross.read fields = .ok c) :
    Key.index.read Offset.current readOffset fields = .ok c.index ∧
      Key.targetIndex.read Offset.current readOffset fields = .ok c.targetIndex := by
  obtain ⟨_, _, hbefore, htargetIndex, hc⟩ := Checked.seq_eq_ok.mp h
  obtain ⟨_, _, htargetField, hindex, rfl⟩ := Checked.seq_eq_ok.mp hbefore
  obtain ⟨_, _, htarget, -, rfl⟩ := Checked.seq_eq_ok.mp htargetField
  obtain ⟨_, _, hoperator, -, rfl⟩ := Checked.seq_eq_ok.mp htarget
  obtain ⟨_, _, hfield, -, rfl⟩ := Checked.seq_eq_ok.mp hoperator
  obtain ⟨_, _, hindicator, -, rfl⟩ := Checked.seq_eq_ok.mp hfield
  obtain ⟨_, -, rfl⟩ := Checked.map_eq_ok.mp hindicator
  rw [hindex, htargetIndex, ← hc]
  exact ⟨rfl, rfl⟩

theorem PriceTest.read_index {p : PriceTest} (h : PriceTest.read fields = .ok p) :
    Key.index.read Offset.current readOffset fields = .ok p.index := by
  obtain ⟨_, _, hprice, hindex, hp⟩ := Checked.seq_eq_ok.mp h
  obtain ⟨_, _, hoperator, -, rfl⟩ := Checked.seq_eq_ok.mp hprice
  obtain ⟨_, _, hfield, -, rfl⟩ := Checked.seq_eq_ok.mp hoperator
  obtain ⟨_, _, hindicator, -, rfl⟩ := Checked.seq_eq_ok.mp hfield
  obtain ⟨_, -, rfl⟩ := Checked.map_eq_ok.mp hindicator
  rw [hindex, ← hp]

/-- What is stored under the key of an offset was read under it. -/
theorem Leaf.read_offset {kind : LeafKind} {l : Leaf} (h : Leaf.read kind fields = .ok l) {key : Key}
    (hkey : key = .index ∨ key = .targetIndex) {stored : Json} (hstored : l.toJson.field? key.camel = some stored) :
    ∃ i, key.read Offset.current readOffset fields = .ok i ∧ stored = Offset.toJson i := by
  cases kind with
  | threshold =>
      obtain ⟨t, ht, rfl⟩ := Checked.map_eq_ok.mp h
      rcases hkey with rfl | rfl <;> cases hstored
      exact ⟨t.index, Threshold.read_index ht, rfl⟩
  | cross =>
      obtain ⟨c, hc, rfl⟩ := Checked.map_eq_ok.mp h
      obtain ⟨hindex, htargetIndex⟩ := Cross.read_offsets hc
      rcases hkey with rfl | rfl <;> cases hstored
      · exact ⟨c.index, hindex, rfl⟩
      · exact ⟨c.targetIndex, htargetIndex, rfl⟩
  | price =>
      obtain ⟨p, hp, rfl⟩ := Checked.map_eq_ok.mp h
      rcases hkey with rfl | rfl <;> cases hstored
      exact ⟨p.index, PriceTest.read_index hp, rfl⟩
  | position =>
      -- a position test stores no offset
      obtain ⟨p, -, rfl⟩ := Checked.map_eq_ok.mp h
      rcases hkey with rfl | rfl <;> cases hstored

/-! ## Offsets -/

/-- An offset is read as the integer that a value counts as, and not at all if that is out of bounds. -/
theorem readOffset_eq_ok_iff {value : Json} {i : Offset} :
    readOffset value = .ok i ↔ readInteger value = .ok (i.val : Int) := by
  unfold readOffset readNatural
  cases hinteger : readInteger value with
  | bad issues => exact iff_of_false nofun nofun
  | ok n =>
      cases n with
      | negSucc k => exact iff_of_false nofun nofun
      | ofNat k =>
          dsimp only
          by_cases hbound : k < maxOffset + 1
          · rw [dif_pos hbound]
            simp only [Checked.ok.injEq, Fin.ext_iff]
            exact Int.ofNat_inj.symm
          · rw [dif_neg hbound]
            refine iff_of_false nofun ?_
            intro h
            have hk : k = i.val := Int.ofNat.inj (Checked.ok.inj h)
            exact hbound (hk ▸ i.isLt)

/-- An offset is stored as the integer that the value given for it counts as, which is in bounds, or as 0 where none
is given. -/
def OffsetAsGiven (fields : List (String × Json)) (key : Key) (stored : Json) : Prop :=
  match key.find? fields with
  | none => stored = .int 0
  | some (_, value) => ∃ n, readInteger value = .ok n ∧ 0 ≤ n ∧ n ≤ 4 ∧ stored = .int n

theorem offsetAsGiven_of_read {key : Key} {i : Offset} (h : key.read Offset.current readOffset fields = .ok i) :
    OffsetAsGiven fields key (Offset.toJson i) := by
  unfold Key.read at h
  unfold OffsetAsGiven
  cases hfind : key.find? fields with
  | none =>
      rw [hfind] at h
      cases h
      rfl
  | some found =>
      obtain ⟨used, value⟩ := found
      rw [hfind] at h
      have hinteger := readOffset_eq_ok_iff.mp (Checked.under_eq_ok.mp h)
      have hbound := i.isLt
      unfold maxOffset at hbound
      exact ⟨i.val, hinteger, by omega, by omega, rfl⟩

/-- **The offsets of a leaf are stored as they were given.** -/
theorem Condition.offsetAsGiven_of_ofJson {l : Leaf} (h : ofJson (.obj fields) = .ok (.leaf l)) {key : Key}
    (hkey : key = .index ∨ key = .targetIndex) {stored : Json} (hstored : l.toJson.field? key.camel = some stored) :
    OffsetAsGiven fields key stored := by
  rw [ofJson] at h
  cases htag : Tag.of fields with
  | missing | unknown =>
      rw [htag] at h
      cases h
  | group =>
      rw [htag] at h
      obtain ⟨_, _, hgroup, -, hleaf⟩ := Checked.seq_eq_ok.mp (Checked.under_eq_ok.mp h)
      obtain ⟨_, -, rfl⟩ := Checked.map_eq_ok.mp hgroup
      cases hleaf
  | leaf kind =>
      rw [htag] at h
      obtain ⟨_, hl, hleaf⟩ := Checked.map_eq_ok.mp (Checked.under_eq_ok.mp h)
      cases hleaf
      obtain ⟨i, hi, rfl⟩ := Leaf.read_offset hl hkey hstored
      exact offsetAsGiven_of_read hi

end TradingRules
