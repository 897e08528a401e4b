import TradingRules.Proofs.Json.RoundTrip
import TradingRules.Proofs.Storage.Rules

/-!
# `Proofs.Storage.Text` — saved and loaded again

What is saved as text is loaded as what it was: trees on one line and over several ones, strategies through a
file. No stored object has a key twice, so its text is read back, and in text that is written no line ends with a
carriage return, so a file keeps it. Where a platform bounds the digits of integers, a value with a longer one is
not saved at all. Of doubles only this is assumed: the text of a finite one is that number.

## Contents
* `Json.FloatsPrint`, `Json.LongerThan`, `Json.Fits` — what is assumed of doubles, and what platforms refuse;
* `Json.render_of_fits`, `Json.render_of_longerThan` — a value is written if no integer in it is too long;
* `Json.return_not_mem_write`, `normalizeLines_of_not_mem` — the lines of a file;
* `unambiguous_toJson` for leaves, conditions, rules and strategies — stored objects;
* `text_round_trip` — saved and loaded again.
-/

namespace TradingRules

namespace Json

/-! ## Scalars -/

/-- The text of every finite double in a value is this double as a number. -/
def FloatsPrint (value : Json) : Prop :=
  ∀ x, .float x ∈ value.scalars → x.isFinite = true → Text.number? (numberStyle.write x) = some x

/-- An integer in a value has more digits than a bound. -/
def LongerThan (value : Json) (bound : Nat) : Prop :=
  ∃ n : Int, .int n ∈ value.scalars ∧ bound < (Nat.toDigits 10 n.natAbs).length

/-- The bound of a platform is exceeded by an integer with more digits. -/
theorem exists_int_of_exceededBy {limit : DigitLimit} {s : Json} {bound : Nat}
    (h : exceededBy? limit s = some bound) :
    ∃ n : Int, s = .int n ∧ limit = some bound ∧ bound < (Nat.toDigits 10 n.natAbs).length := by
  cases s with
  | int n =>
      obtain ⟨hlimit, hlength⟩ := Option.filter_eq_some_iff.mp (show Option.filter _ limit = some bound from h)
      exact ⟨n, rfl, hlimit, of_decide_eq_true hlength⟩
  | _ => cases h

theorem longerThan_iff {value : Json} {bound : Nat} :
    (∃ s ∈ value.scalars, exceededBy? (some bound) s ≠ none) ↔ value.LongerThan bound := by
  constructor
  · rintro ⟨s, hs, hexceeded⟩
    obtain ⟨bound', hbound⟩ := Option.ne_none_iff_exists'.mp hexceeded
    obtain ⟨n, rfl, heq, hlength⟩ := exists_int_of_exceededBy hbound
    rw [← Option.some.inj heq] at hlength
    exact ⟨n, hs, hlength⟩
  · rintro ⟨n, hn, hlength⟩
    refine ⟨_, hn, ?_⟩
    simp only [exceededBy?, DigitLimit.exceeded?]
    rw [Option.filter_some, if_pos (decide_eq_true hlength)]
    exact Option.some_ne_none bound

instance (value : Json) (bound : Nat) : Decidable (value.LongerThan bound) := decidable_of_iff _ longerThan_iff

/-- No integer in a value is longer than the bound of a platform, where there is one. -/
def Fits (limit : DigitLimit) (value : Json) : Prop := ∀ bound, limit = some bound → ¬value.LongerThan bound

theorem fits_iff {limit : DigitLimit} {value : Json} :
    value.Fits limit ↔ ∀ s ∈ value.scalars, exceededBy? limit s = none := by
  cases limit with
  | none =>
      have hunbounded : ∀ s, exceededBy? none s = none := by
        intro s
        cases s <;> rfl
      exact iff_of_true nofun fun s _ => hunbounded s
  | some bound =>
      unfold Fits
      simp only [Option.some.injEq, forall_eq', ← longerThan_iff]
      push Not
      rfl

instance (limit : DigitLimit) (value : Json) : Decidable (value.Fits limit) := decidable_of_iff _ fits_iff.symm

/-- **A value that fits is written.** -/
theorem render_of_fits {limit : DigitLimit} {value : Json} (h : value.Fits limit) (spacing : Spacing) :
    render limit spacing value = .ok (String.ofList (write spacing 0 value)) := by
  unfold render
  rw [List.findSome?_eq_none_iff.mpr (fits_iff.mp h)]

/-- **A value with a longer integer is refused**, and the bound is named. -/
theorem render_of_longerThan {value : Json} {bound : Nat} (h : value.LongerThan bound) (spacing : Spacing) :
    render (some bound) spacing value = .error ⟨bound⟩ := by
  unfold render
  cases hfound : value.scalars.findSome? (exceededBy? (some bound)) with
  | none =>
      obtain ⟨s, hs, hexceeded⟩ := longerThan_iff.mpr h
      exact absurd (List.findSome?_eq_none_iff.mp hfound s hs) hexceeded
  | some found =>
      obtain ⟨s, hs, hexceeded⟩ := List.exists_of_findSome?_eq_some hfound
      obtain ⟨n, rfl, hlimit, -⟩ := exists_int_of_exceededBy hexceeded
      rw [Option.some.inj hlimit]

/-- The scalars of a value are read back if its integers fit and its finite doubles are what is written. -/
theorem readsBack_of_fits {limit : DigitLimit} {value : Json} (hfloats : value.FloatsPrint)
    (hfits : value.Fits limit) : ∀ s ∈ value.scalars, ReadsBack limit s := by
  intro s hs
  cases s with
  | int n => exact fits_iff.mp hfits _ hs
  | float x => exact hfloats x hs
  | _ => trivial

theorem floatsPrint_iff {value : Json} : (∀ s ∈ value.scalars, ReadsBack none s) ↔ value.FloatsPrint := by
  constructor
  · exact fun h x hx => h _ hx
  · exact fun h => readsBack_of_fits h nofun

instance (value : Json) : Decidable value.FloatsPrint := decidable_of_iff _ floatsPrint_iff

/-! ## Lines -/

theorem return_not_mem_writeChar (c : Char) : '\r' ∉ writeChar c := by
  rcases writeChar_cases c with ⟨e, -, hescaped, hwrite⟩ | ⟨hcontrol, hwrite⟩ | ⟨-, -, hcontrol, hwrite⟩
  · have he : '\r' ≠ e := by
      rintro rfl
      cases hescaped
    rw [hwrite]
    simp [he]
  · rw [hwrite]
    generalize c.toNat = n at hcontrol
    revert n
    decide
  · rw [hwrite, List.mem_singleton]
    rintro rfl
    exact hcontrol (by decide)

theorem return_not_mem_writeString (s : String) : '\r' ∉ writeString s := by
  have hchars : '\r' ∉ s.toList.flatMap writeChar := by
    rw [List.mem_flatMap]
    rintro ⟨c, -, hc⟩
    exact return_not_mem_writeChar c hc
  unfold writeString
  simp [hchars]

theorem return_not_mem_of_numeralChar {text : List Char} (h : ∀ c ∈ text, Decimal.NumeralChar c) : '\r' ∉ text := by
  intro hreturn
  have hchar := h _ hreturn
  revert hchar
  unfold Decimal.NumeralChar
  decide

theorem return_not_mem_writeInt (n : Int) : '\r' ∉ writeInt n := by
  rw [writeInt_eq]
  refine return_not_mem_of_numeralChar (Decimal.numeralChar_signed ?_ _)
  exact fun c hc => .inl (Decimal.allDigits_toDigits _ c hc)

theorem return_not_mem_writeFloat (x : Float) : '\r' ∉ numberStyle.write x := by
  rcases Decimal.write_cases x with ⟨-, htext⟩ | ⟨negative, -, htext⟩ | ⟨-, negative, n, hn, htext⟩
  · rw [htext]
    decide
  · rw [htext]
    cases negative <;> decide
  · rw [htext]
    exact return_not_mem_of_numeralChar (Decimal.numeralChar_signed hn.numeralChar negative)

theorem return_not_mem_newline (level : Nat) : '\r' ∉ newline level := by
  unfold newline
  simp

theorem Spacing.return_not_mem (spacing : Spacing) (level : Nat) :
    '\r' ∉ spacing.opening level ∧ '\r' ∉ spacing.between level ∧ '\r' ∉ spacing.closing level := by
  cases spacing with
  | compact =>
      have hbetween : '\r' ∉ [',', ' '] := by decide
      exact ⟨List.not_mem_nil, hbetween, List.not_mem_nil⟩
  | indented =>
      refine ⟨return_not_mem_newline level, ?_, return_not_mem_newline (level - 1)⟩
      exact List.not_mem_cons_of_ne_of_not_mem (by decide) (return_not_mem_newline level)

mutual

/-- **No carriage return is written**: in text it is a backslash and a letter. -/
theorem return_not_mem_write (spacing : Spacing) (level : Nat) (value : Json) : '\r' ∉ write spacing level value := by
  obtain ⟨hopening, -, hclosing⟩ := spacing.return_not_mem (level + 1)
  match value with
  | .null | .bool true | .bool false | .arr [] | .obj [] =>
      rw [write]
      decide
  | .int n => exact return_not_mem_writeInt n
  | .float x => exact return_not_mem_writeFloat x
  | .str s => exact return_not_mem_writeString s
  | .arr (item :: items) =>
      have hitem := return_not_mem_write spacing (level + 1) item
      have hitems := return_not_mem_writeItems spacing (level + 1) items
      rw [write]
      simp [hopening, hclosing, hitem, hitems]
  | .obj ((key, value) :: fields) =>
      have hkey := return_not_mem_writeString key
      have hvalue := return_not_mem_write spacing (level + 1) value
      have hfields := return_not_mem_writeFields spacing (level + 1) fields
      rw [write]
      simp [hopening, hclosing, hkey, hvalue, hfields]

theorem return_not_mem_writeItems (spacing : Spacing) (level : Nat) (items : List Json) :
    '\r' ∉ writeItems spacing level items := by
  obtain ⟨-, hbetween, -⟩ := spacing.return_not_mem level
  match items with
  | [] => exact List.not_mem_nil
  | item :: items =>
      have hitem := return_not_mem_write spacing level item
      have hitems := return_not_mem_writeItems spacing level items
      rw [writeItems]
      simp [hbetween, hitem, hitems]

theorem return_not_mem_writeFields (spacing : Spacing) (level : Nat) (fields : List (String × Json)) :
    '\r' ∉ writeFields spacing level fields := by
  obtain ⟨-, hbetween, -⟩ := spacing.return_not_mem level
  match fields with
  | [] => exact List.not_mem_nil
  | (key, value) :: fields =>
      have hkey := return_not_mem_writeString key
      have hvalue := return_not_mem_write spacing level value
      have hfields := return_not_mem_writeFields spacing level fields
      rw [writeFields]
      simp [hbetween, hkey, hvalue, hfields]

end

end Json

/-- Lines without a carriage return are kept as they are. -/
theorem normalizeLines_of_not_mem {cs : List Char} (h : '\r' ∉ cs) : normalizeLines cs = cs := by
  induction cs with
  | nil => rfl
  | cons c cs ih =>
      rw [List.mem_cons, not_or] at h
      obtain ⟨hc, hcs⟩ := h
      rw [normalizeLines, ih hcs]
      · rintro rest rfl
        exact absurd rfl hc
      · rintro rfl
        exact absurd rfl hc

/-! ## Stored objects -/

open Json (Unambiguous)

theorem unambiguous_indicatorJson (indicator : Option Int) : (indicatorJson indicator).Unambiguous := by
  cases indicator with
  | none => exact .null
  | some n => exact .int n

theorem unambiguous_fieldJson (field : Option String) : (fieldJson field).Unambiguous := by
  cases field with
  | none => exact .null
  | some s => exact .str s

theorem Operand.unambiguous_toJson (operand : Operand) : operand.toJson.Unambiguous := by
  cases operand with
  | scalar x => exact .float x
  | range a b =>
      refine .arr ?_
      simp only [List.forall_mem_cons]
      exact ⟨.float a, .float b, List.forall_mem_nil _⟩

theorem Leaf.unambiguous_toJson (l : Leaf) : l.toJson.Unambiguous := by
  have hkeys : (l.toJson.fields.map Prod.fst).Nodup := by
    refine List.Nodup.of_map firstSpelling ?_
    rw [List.map_map]
    exact l.distinct_toJson
  rw [l.toJson_eq]
  refine .obj hkeys ?_
  cases l with
  | threshold t =>
      simp only [toJson, Json.fields, List.forall_mem_cons]
      exact ⟨.str _, unambiguous_indicatorJson _, .str _, .str _, t.operand.unambiguous_toJson, .int _,
        List.forall_mem_nil _⟩
  | cross c =>
      simp only [toJson, Json.fields, List.forall_mem_cons]
      exact ⟨.str _, unambiguous_indicatorJson _, .str _, .str _, unambiguous_indicatorJson _,
        unambiguous_fieldJson _, .int _, .int _, List.forall_mem_nil _⟩
  | price p =>
      simp only [toJson, Json.fields, List.forall_mem_cons]
      exact ⟨.str _, unambiguous_indicatorJson _, .str _, .str _, .str _, .int _, List.forall_mem_nil _⟩
  | position p =>
      simp only [toJson, Json.fields, List.forall_mem_cons]
      exact ⟨.str _, .str _, .str _, p.operand.unambiguous_toJson, List.forall_mem_nil _⟩

theorem Group.unambiguous_of_children {g : Group} (h : ∀ c ∈ g.children, c.toJson.Unambiguous) :
    g.toJson.Unambiguous := by
  have hkeys : (["type", "logic", "conditions"] : List String).Nodup := by decide
  rw [toJson_eq, fields_toJson]
  refine .obj hkeys ?_
  simp only [List.forall_mem_cons]
  exact ⟨.str _, .str _, .arr (List.forall_mem_map.mpr h), List.forall_mem_nil _⟩

theorem Condition.unambiguous_toJson (c : Condition) : c.toJson.Unambiguous := by
  induction c with
  | leaf l =>
      rw [toJson]
      exact l.unambiguous_toJson
  | group logic children ih => exact Group.unambiguous_of_children (g := ⟨logic, children⟩) ih

theorem Group.unambiguous_toJson (g : Group) : g.toJson.Unambiguous := g.toCondition.unambiguous_toJson

theorem Rule.unambiguous_toJson (r : Rule) : r.toJson.Unambiguous := by
  have hkeys : (["ruleNo", "ruleType", "priority", "isActive", "conditions"] : List String).Nodup := by decide
  refine .obj hkeys ?_
  simp only [List.forall_mem_cons]
  exact ⟨.int _, .str _, .int _, .bool _, r.tree.unambiguous_toJson, List.forall_mem_nil _⟩

/-- **No object in a stored strategy has a key twice.** -/
theorem RuleSet.unambiguous_toJson (rules : RuleSet) : rules.toJson.Unambiguous := by
  have hkeys : (["buyRules", "sellRules"] : List String).Nodup := by decide
  have hrules (rs : List Rule) : (Json.arr (rs.map Rule.toJson)).Unambiguous :=
    .arr (List.forall_mem_map.mpr fun r _ => r.unambiguous_toJson)
  refine .obj hkeys ?_
  simp only [List.forall_mem_cons]
  exact ⟨hrules _, hrules _, List.forall_mem_nil _⟩

/-! ## Loading -/

section Loading

variable {limit : Json.DigitLimit}

/-- A tree is loaded from its text, in every spacing. -/
theorem Group.loadText_write (g : Group) (spacing : Json.Spacing) (legacy : Bool)
    (h : ∀ s ∈ g.toJson.scalars, Json.ReadsBack limit s) :
    Group.loadText limit legacy (String.ofList (Json.write spacing 0 g.toJson)) = .ok g := by
  unfold loadText
  rw [Json.parse_write g.unambiguous_toJson h]
  exact g.load_respelled legacy (.same _)

/-- A strategy is loaded from a file with its text. -/
theorem RuleSet.loadFile_write (rules : RuleSet) (legacy : Bool) (file : String)
    (h : ∀ s ∈ rules.toJson.scalars, Json.ReadsBack limit s) :
    RuleSet.loadFile limit legacy file (some (String.ofList (Json.write .indented 0 rules.toJson))) = .ok rules := by
  unfold loadFile
  dsimp only
  rw [String.toList_ofList, normalizeLines_of_not_mem (Json.return_not_mem_write _ _ _),
    Json.parse_write rules.unambiguous_toJson h]
  exact rules.load_respelled legacy (.same _)

end Loading

/-- **Saved and loaded again.** A tree whose integers fit is loaded from its text as what it is, with an upgrade and
without, whether it was written on one line or over several ones; and so is a strategy from its file. This is so for
all names of fields and all references, and if numbers are NaN or infinite: of doubles it is assumed only that the text
of a finite one is that number. Without a bound on the digits of integers everything fits; with one, what has a longer
integer is refused, before anything is loaded. -/
theorem text_round_trip (limit : Json.DigitLimit) (legacy : Bool) :
    (∀ (g : Group) (spacing : Json.Spacing),
      (g.toJson.FloatsPrint → g.toJson.Fits limit →
        ∃ text, g.saveText limit spacing = .ok text ∧ Group.loadText limit legacy text = .ok g) ∧
      ∀ bound, limit = some bound → g.toJson.LongerThan bound → g.saveText limit spacing = .error ⟨bound⟩) ∧
    (∀ (rules : RuleSet) (file : String),
      (rules.toJson.FloatsPrint → rules.toJson.Fits limit →
        ∃ text, rules.saveFile limit file true = .ok text ∧
          RuleSet.loadFile limit legacy file (some text) = .ok rules) ∧
      ∀ bound, limit = some bound → rules.toJson.LongerThan bound →
        rules.saveFile limit file true = .error (.notSaved file)) := by
  refine ⟨fun g spacing => ⟨?loaded, ?refused⟩, fun rules file => ⟨?loadedFile, ?refusedFile⟩⟩
  case loaded =>
    intro hfloats hfits
    have hread := Json.readsBack_of_fits hfloats hfits
    exact ⟨_, Json.render_of_fits hfits spacing, g.loadText_write spacing legacy hread⟩
  case refused =>
    rintro bound rfl hlong
    exact Json.render_of_longerThan hlong spacing
  case loadedFile =>
    intro hfloats hfits
    have hread := Json.readsBack_of_fits hfloats hfits
    refine ⟨_, ?_, rules.loadFile_write legacy file hread⟩
    rw [RuleSet.saveFile, if_pos rfl, RuleSet.saveText, Json.render_of_fits hfits]
    rfl
  case refusedFile =>
    rintro bound rfl hlong
    rw [RuleSet.saveFile, if_pos rfl, RuleSet.saveText, Json.render_of_longerThan hlong]
    rfl

/-- A tree with a name that has to be escaped, references of any size, doubles with and without digits, and an
empty group. -/
def awkwardTree : Group where
  logic := .or
  children := [
    .leaf (.threshold { indicator := some (-9999999999999999999999999), field := "a\"b\\c\n\r\t\x01 é😀", comparison := .between,
                        operand := .range (0.0 / 0.0) (-infinity) }),
    .group .and [],
    .group .and [.leaf (.cross { indicator := some 0, target := none, targetField := none }),
      .leaf (.position { field := "", operand := .scalar (-2.5e-7) })],
    .leaf (.threshold { operand := .range 0.1 (-0.0) })]

/-- A strategy that buys by this tree. -/
def awkwardStrategy : RuleSet where
  buying := [{ number := 99999999999999999999, side := .buy, tree := awkwardTree }]

/-- The tree and the strategy are loaded as they were saved, with an upgrade and without. -/
theorem text_round_trip_awkward :
    awkwardTree.toJson.FloatsPrint ∧ awkwardStrategy.toJson.FloatsPrint ∧
      (∀ legacy spacing, ∃ text, awkwardTree.saveText .standard spacing = .ok text ∧
        Group.loadText .standard legacy text = .ok awkwardTree) ∧
      ∀ legacy, ∃ text, awkwardStrategy.saveFile .standard "strategy.json" true = .ok text ∧
        RuleSet.loadFile .standard legacy "strategy.json" (some text) = .ok awkwardStrategy := by
  have htree : awkwardTree.toJson.FloatsPrint := by decide +kernel
  have hstrategy : awkwardStrategy.toJson.FloatsPrint := by decide +kernel
  refine ⟨htree, hstrategy, ?tree, ?file⟩
  case tree =>
    intro legacy spacing
    exact ((text_round_trip .standard legacy).1 awkwardTree spacing).1 htree (by decide +kernel)
  case file =>
    intro legacy
    exact ((text_round_trip .standard legacy).2 awkwardStrategy "strategy.json").1 hstrategy (by decide +kernel)

/-- A tree that reads an indicator with a number of 4301 digits. -/
def farTree : Group where
  children := [.leaf (.threshold { indicator := some (Nat.pow 10 4300 : Nat) })]

/-- Where no other bound was set, some trees cannot be saved, and so not be loaded again. -/
theorem not_always_saved :
    ¬∀ (g : Group) (spacing : Json.Spacing), g.toJson.FloatsPrint →
      ∃ text, g.saveText .standard spacing = .ok text ∧ Group.loadText .standard false text = .ok g := by
  intro h
  obtain ⟨text, hsaved, -⟩ := h farTree .compact (by decide +kernel)
  have hlong : farTree.toJson.LongerThan 4300 := by decide +kernel
  have hrefused : farTree.saveText .standard .compact = .error ⟨4300⟩ := Json.render_of_longerThan hlong .compact
  rw [hrefused] at hsaved
  cases hsaved

end TradingRules
