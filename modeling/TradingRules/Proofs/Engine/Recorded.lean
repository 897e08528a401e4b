import TradingRules.Engine.Recorded
import TradingRules.Proofs.Checked

/-!
# `Proofs.Engine.Recorded` — which ticks go on record

A tick goes on record exactly if each price of its bar is a number, counts as one, or is missing; otherwise the
issues name the prices that are not. Nothing else can stand in the way of a record, and a record differs from the
log in its prices alone. Prices that are numbers already stay what they are.

## Contents
* `Json.Recordable` — prices that can be put on record;
* `PriceBar.exists_recorded_iff`, `PriceBar.mem_paths_recorded` — prices on record, or the issues with them;
* `PriceBar.recorded_of_numbers` — prices that stay as they are;
* `Engine.evaluateTick_name`, `Engine.evaluateTick_of_ne` — a tick with its record.
-/

namespace TradingRules

/-! ## One price -/

/-- A raw price can be put on record: it is missing, a truth value, a double or an integer that a double is near, or
text that reads as a number. -/
def Json.Recordable : Json → Prop
  | .null | .bool _ | .float _ => True
  | .int n => Decimal.floatOfInt? n ≠ none
  | .str s => Text.number? s.toList ≠ none
  | .arr _ | .obj _ => False

/-- A price that can be put on record is read as a number or as missing; any other has one issue. -/
theorem Json.readPrice_cases (value : Json) :
    (value.Recordable ∧ ∃ x, readOptional readNumber value = .ok x) ∨
      (¬value.Recordable ∧ ∃ kind, readOptional readNumber value = .fail kind) := by
  cases value with
  | null => exact .inl ⟨trivial, none, rfl⟩
  | bool b => exact .inl ⟨trivial, _, rfl⟩
  | float x => exact .inl ⟨trivial, _, rfl⟩
  | int n =>
      simp only [Recordable, readOptional, readNumber]
      cases Decimal.floatOfInt? n with
      | none => exact .inr ⟨fun h => h rfl, _, rfl⟩
      | some x => exact .inl ⟨nofun, _, rfl⟩
  | str s =>
      simp only [Recordable, readOptional, readNumber]
      cases Text.number? s.toList with
      | none => exact .inr ⟨fun h => h rfl, _, rfl⟩
      | some x => exact .inl ⟨nofun, _, rfl⟩
  | arr items => exact .inr ⟨id, _, rfl⟩
  | obj fields => exact .inr ⟨id, _, rfl⟩

/-! ## The prices of a bar -/

namespace PriceBar

variable {p q : PriceBar} {field : PriceField}

theorem entry_cases (p : PriceBar) (field : PriceField) :
    ((p.given field).Recordable ∧ ∃ x, p.entry field = .ok (numberJson x)) ∨
      (¬(p.given field).Recordable ∧ ∃ kind, p.entry field = .bad [⟨kind, [.key field.recordName]⟩]) := by
  unfold entry
  rcases (p.given field).readPrice_cases with ⟨hprice, x, hx⟩ | ⟨hprice, kind, hkind⟩
  · rw [hx]
    exact .inl ⟨hprice, x, rfl⟩
  · rw [hkind]
    exact .inr ⟨hprice, kind, rfl⟩

theorem exists_entry_iff : (∃ value, p.entry field = .ok value) ↔ (p.given field).Recordable := by
  rcases p.entry_cases field with ⟨hprice, x, hx⟩ | ⟨hprice, kind, hkind⟩
  · exact iff_of_true ⟨_, hx⟩ hprice
  · refine iff_of_false ?_ hprice
    rw [hkind]
    exact nofun

/-- The issues with one price name it. -/
theorem mem_paths_entry {path : List Step} :
    (∃ issue ∈ (p.entry field).issues, issue.path = path) ↔
      ¬(p.given field).Recordable ∧ path = [.key field.recordName] := by
  rcases p.entry_cases field with ⟨hprice, x, hx⟩ | ⟨hprice, kind, hkind⟩
  · simp [hx, hprice, Checked.issues]
  · simp [hkind, hprice, Checked.issues, eq_comm]

/-- **The prices of a bar go on record exactly if each of them can.** -/
theorem exists_recorded_iff : (∃ q, p.recorded = .ok q) ↔ ∀ field, (p.given field).Recordable := by
  simp only [← exists_entry_iff]
  unfold recorded
  constructor
  · rintro ⟨q, h⟩ field
    obtain ⟨_, closing, h, hclosing, -⟩ := Checked.seq_eq_ok.mp h
    obtain ⟨_, lowest, h, hlowest, -⟩ := Checked.seq_eq_ok.mp h
    obtain ⟨_, highest, h, hhighest, -⟩ := Checked.seq_eq_ok.mp h
    obtain ⟨opening, hopening, -⟩ := Checked.map_eq_ok.mp h
    cases field with
    | closing => exact ⟨closing, hclosing⟩
    | opening => exact ⟨opening, hopening⟩
    | highest => exact ⟨highest, hhighest⟩
    | lowest => exact ⟨lowest, hlowest⟩
  · intro h
    obtain ⟨opening, hopening⟩ := h .opening
    obtain ⟨highest, hhighest⟩ := h .highest
    obtain ⟨lowest, hlowest⟩ := h .lowest
    obtain ⟨closing, hclosing⟩ := h .closing
    rw [hopening, hhighest, hlowest, hclosing]
    exact ⟨_, rfl⟩

/-- **The issues name the prices that cannot be put on record.** -/
theorem mem_paths_recorded {issues : List Issue} (h : p.recorded = .bad issues) {path : List Step} :
    (∃ issue ∈ issues, issue.path = path) ↔
      ∃ field : PriceField, ¬(p.given field).Recordable ∧ path = [.key field.recordName] := by
  have hissues : issues = (p.entry .opening).issues ++ (p.entry .highest).issues ++ (p.entry .lowest).issues ++
      (p.entry .closing).issues := by
    have hall : issues = p.recorded.issues := by
      rw [h]
      rfl
    rw [hall, recorded, Checked.issues_seq, Checked.issues_seq, Checked.issues_seq, Checked.issues_map]
  simp only [hissues, List.mem_append, or_and_right, exists_or, mem_paths_entry]
  constructor
  · rintro (((hopening | hhighest) | hlowest) | hclosing)
    · exact ⟨_, hopening⟩
    · exact ⟨_, hhighest⟩
    · exact ⟨_, hlowest⟩
    · exact ⟨_, hclosing⟩
  · rintro ⟨field, hfield⟩
    cases field with
    | opening => exact .inl (.inl (.inl hfield))
    | highest => exact .inl (.inl (.inr hfield))
    | lowest => exact .inl (.inr hfield)
    | closing => exact .inr hfield

/-- Prices that are numbers or missing stay what they are. -/
theorem recorded_of_numbers (h : ∀ field, ∃ x, p.given field = numberJson x) : p.recorded = .ok p := by
  have hentry : ∀ field, p.entry field = .ok (p.given field) := by
    intro field
    obtain ⟨x, hx⟩ := h field
    rw [entry, hx]
    cases x <;> rfl
  rw [recorded, hentry, hentry, hentry, hentry]
  rfl

end PriceBar

/-! ## Ticks -/

namespace TickLog

variable {log : TickLog}

/-- A log goes on record with its prices changed and nothing else, or there are issues with these. -/
theorem recorded_cases (log : TickLog) :
    ((∀ field, (log.price.given field).Recordable) ∧
        ∃ price, log.price.recorded = .ok price ∧ log.recorded = .ok { log with price }) ∨
      (¬(∀ field, (log.price.given field).Recordable) ∧ ∃ issues, log.recorded = .error (.invalid issues) ∧
        ∀ path, (∃ issue ∈ issues, issue.path = path) ↔
          ∃ field : PriceField, ¬(log.price.given field).Recordable ∧ path = [.key field.recordName]) := by
  unfold recorded
  cases hprice : log.price.recorded with
  | ok price => exact .inl ⟨PriceBar.exists_recorded_iff.mp ⟨price, hprice⟩, price, rfl, rfl⟩
  | bad issues =>
      refine .inr ⟨?_, issues, rfl, fun path => PriceBar.mem_paths_recorded hprice⟩
      rw [← PriceBar.exists_recorded_iff, hprice]
      exact nofun

theorem recorded_of_numbers (h : ∀ field, ∃ x, log.price.given field = numberJson x) : log.recorded = .ok log := by
  unfold recorded
  rw [PriceBar.recorded_of_numbers h]

/-- A log has the prices of the current bar. -/
theorem price_ofResults {ctx : Context} {bar : Snapshot} (h : ctx.current = some bar) (state : PositionState)
    (results : List RuleResult) : (ofResults ctx state results).price = bar.price := by
  unfold ofResults
  rw [h]
  rfl

/-- Without a bar it has none. -/
theorem price_ofResults_of_none {ctx : Context} (h : ctx.current = none) (state : PositionState)
    (results : List RuleResult) : (ofResults ctx state results).price = {} := by
  unfold ofResults
  rw [h]
  rfl

end TickLog

namespace Engine

/-- A tick in a named state is that of the state. -/
theorem tickIn_name (e : Engine) (ctx : Context) (state : PositionState) :
    e.tickIn ctx (.str state.name) = .ok (e.tick ctx state) := by
  cases state <;> rfl

/-- A value that names no state is refused. -/
theorem tickIn_of_ne (e : Engine) (ctx : Context) {value : Json} (h : ∀ state, value ≠ .str (PositionState.name state)) :
    e.tickIn ctx value = .error ⟨value⟩ := by
  have hread : PositionState.read value = .error ⟨value⟩ := by
    unfold PositionState.read
    split
    · next name =>
        have hname : PositionState.ofName? name = none := by
          unfold PositionState.ofName?
          split
          · exact absurd rfl (h .flat)
          · exact absurd rfl (h .holding)
          · rfl
        rw [hname]
    · rfl
  unfold tickIn
  rw [hread]
  rfl

/-- A tick in a named state puts the log of the state on record. The engine goes on from the tick either way. -/
theorem evaluateTick_name (e : Engine) (ctx : Context) (state : PositionState) :
    e.evaluateTick ctx (.str state.name) = ((e.tick ctx state).1, (e.tick ctx state).2.recorded) := by
  rw [evaluateTick, tickIn_name]

theorem evaluateTick_of_ne (e : Engine) (ctx : Context) {value : Json}
    (h : ∀ state, value ≠ .str (PositionState.name state)) :
    e.evaluateTick ctx value = (e, .error (.unknownState ⟨value⟩)) := by
  rw [evaluateTick, e.tickIn_of_ne ctx h]

end Engine

end TradingRules
