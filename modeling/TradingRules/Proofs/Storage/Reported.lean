import TradingRules.Proofs.Storage.Upgrade

/-!
# `Proofs.Storage.Reported` — which loads end without a report

A loader gives a value or reports what is wrong with the document. This is so wherever a document is read as it
stands. An upgrade, and a rule set, look into a document before it is read, and there the types of its parts are not
checked: some documents are neither loaded nor reported. `loaders_answer_iff` says which, for every loader; for text
and files an integer that is too long to be read is one more case.

## Contents
* `Unreported`, `Answers` — a load gives a value or a report, unless its error is not reported;
* `Rule.Mistyped`, `RuleSet.Mistyped` — the documents that get no answer;
* `loaders_answer_iff` — every other document gets one.
-/

namespace TradingRules

open Fallible Legacy

variable {limit : Json.DigitLimit} {legacy : Bool} {document : Json}

/-! ## Answers -/

/-- The error is not reported as one of the document. -/
def Unreported (e : LoadError) : Prop := e.isReported = false

/-- A load gives a value, or an error that is reported as one of the document. -/
def Answers {α : Type} (x : Except LoadError α) : Prop :=
  (∃ value, x = .ok value) ∨ ∃ e, x = .error e ∧ e.isReported = true

theorem answers_iff {α : Type} {x : Except LoadError α} : Answers x ↔ ¬FailsWith Unreported x := by
  cases x <;> simp [Answers, Unreported]

/-- Issues are reported. -/
theorem not_unreported_toLoad {α : Type} (subject : Subject) (x : Checked α) :
    ¬FailsWith Unreported (x.toLoad subject) := by
  cases x with
  | ok value => exact not_failsWith_ok value
  | bad issues =>
      rintro ⟨e, he, hreported⟩
      cases he
      cases hreported

/-- Of the faults of an upgrade only those of types are not reported. -/
theorem unreported_legacy : (fun fault => Unreported (.legacy fault)) = Fault.IsTyping := by
  funext fault
  cases fault <;> simp [Unreported, LoadError.isReported, Fault.IsTyping]

/-- An upgrade ends without a report on a mistyped document only. -/
theorem unreported_upgradeIf_iff :
    FailsWith Unreported (upgradeIf legacy document) ↔ legacy = true ∧ Mistyped document := by
  cases legacy with
  | false => exact iff_of_false (not_failsWith_ok document) (by simp)
  | true =>
      show FailsWith Unreported ((upgradeAt [] document).mapError LoadError.legacy) ↔ _
      rw [failsWith_mapError, unreported_legacy, failsWith_upgradeAt_iff]
      simp

/-- Whatever is read after a first step ends without a report in that step only. -/
theorem unreported_bind_toLoad_iff {α β : Type} {x : Except LoadError β} {read : β → Checked α} {subject : Subject} :
    FailsWith Unreported (x >>= fun value => (read value).toLoad subject) ↔ FailsWith Unreported x := by
  rw [failsWith_bind]
  refine or_iff_left ?_
  rintro ⟨value, -, h⟩
  exact not_unreported_toLoad subject (read value) h

/-! ## Trees and rules -/

theorem Group.unreported_load_iff :
    FailsWith Unreported (Group.load legacy document) ↔ legacy = true ∧ Mistyped document := by
  unfold Group.load
  rw [unreported_bind_toLoad_iff, unreported_upgradeIf_iff]

namespace Rule

/-- A rule that is upgraded is no object, or its tree is an object that stops the upgrade. -/
def Mistyped (document : Json) : Prop :=
  (∀ fields, document ≠ .obj fields) ∨
    ∃ fields tree, document = .obj fields ∧ fields.lookup "conditions" = some (.obj tree) ∧
      Legacy.Mistyped (.obj tree)

theorem unreported_upgradeRule_iff {fields : List (String × Json)} :
    FailsWith Unreported (upgradeRule fields) ↔
      ∃ tree, fields.lookup "conditions" = some (.obj tree) ∧ Legacy.Mistyped (.obj tree) := by
  unfold upgradeRule
  split
  next tree htree =>
    show FailsWith Unreported ((upgradeIf true (.obj tree)).map _) ↔ _
    rw [failsWith_map, unreported_upgradeIf_iff, htree]
    simp
  next hother =>
    refine iff_of_false (not_failsWith_ok fields) ?_
    rintro ⟨tree, htree, -⟩
    exact hother tree htree

theorem unreported_load_iff :
    FailsWith Unreported (Rule.load legacy document) ↔ legacy = true ∧ Rule.Mistyped document := by
  cases legacy with
  | false => exact iff_of_false (not_unreported_toLoad .rule (Rule.ofJson document)) (by simp)
  | true =>
      cases document with
      | obj fields =>
          show FailsWith Unreported (upgradeRule fields >>= fun fields => (Rule.ofJson (.obj fields)).toLoad .rule) ↔ _
          rw [unreported_bind_toLoad_iff, unreported_upgradeRule_iff]
          simp [Rule.Mistyped]
      | null | bool | int | float | str | arr => exact iff_of_true ⟨.notAnObject, rfl, rfl⟩ ⟨rfl, .inl nofun⟩

end Rule

/-! ## Rule sets -/

namespace RuleSet

/-- The rules of one side have no parts; or one of them stops an upgrade, and those before it are loaded. -/
def MistypedSide (legacy : Bool) (key : Key) (fields : List (String × Json)) : Prop :=
  ∃ used value, key.find? fields = some (used, value) ∧
    (parts? value = none ∨ ∃ documents, parts? value = some documents ∧
      StopsAt (fun document => ∃ r, Rule.load legacy document = .ok r)
        (fun document => legacy = true ∧ Rule.Mistyped document) documents)

/-- A rule set is no object; or its buying rules are mistyped, or they are loaded and its selling rules are. -/
def Mistyped (legacy : Bool) (document : Json) : Prop :=
  (∀ fields, document ≠ .obj fields) ∨
    ∃ fields, document = .obj fields ∧ (MistypedSide legacy .buying fields ∨
      (∃ rules, loadSide legacy .buying fields = .ok rules) ∧ MistypedSide legacy .selling fields)

theorem unreported_loadSide_iff {key : Key} {fields : List (String × Json)} :
    FailsWith Unreported (loadSide legacy key fields) ↔ MistypedSide legacy key fields := by
  unfold loadSide MistypedSide
  cases hfind : key.find? fields with
  | none => exact iff_of_false (not_failsWith_ok []) (by simp)
  | some found =>
      obtain ⟨used, value⟩ := found
      dsimp only
      cases hparts : parts? value with
      | none => exact iff_of_true ⟨.rulesNotAList, rfl, rfl⟩ ⟨used, value, rfl, .inl hparts⟩
      | some documents =>
          have hrules : (fun document => FailsWith Unreported (Rule.load legacy document)) =
              fun document => legacy = true ∧ Rule.Mistyped document :=
            funext fun document => propext Rule.unreported_load_iff
          dsimp only
          rw [failsWith_mapM, hrules]
          simp [hparts]

theorem unreported_load_iff : FailsWith Unreported (RuleSet.load legacy document) ↔ Mistyped legacy document := by
  cases document with
  | obj fields =>
      have hselling : ∀ buying, FailsWith Unreported (loadSide legacy .selling fields >>= fun selling =>
          pure (⟨buying, selling⟩ : RuleSet)) ↔ MistypedSide legacy .selling fields :=
        fun buying => failsWith_map.trans unreported_loadSide_iff
      show FailsWith Unreported (loadSide legacy .buying fields >>= fun buying =>
        loadSide legacy .selling fields >>= fun selling => pure (⟨buying, selling⟩ : RuleSet)) ↔ _
      rw [failsWith_bind, unreported_loadSide_iff]
      simp only [hselling, exists_and_right]
      simp [Mistyped]
  | null | bool | int | float | str | arr => exact iff_of_true ⟨.notAnObject, rfl, rfl⟩ (.inl nofun)

end RuleSet

/-! ## Text -/

/-- Text is no document for an integer in it that is too long to be read. -/
def HoldsLongInteger (limit : Json.DigitLimit) (text : String) : Prop :=
  ∃ error, Json.parse limit text = .error error ∧ ∃ bound digits, error.cause = .longInteger bound digits

theorem unreported_malformed_iff {source : Option String} {error : Json.SyntaxError} :
    Unreported (.malformed source error) ↔ ∃ bound digits, error.cause = .longInteger bound digits := by
  obtain ⟨cause, position, line, column⟩ := error
  cases cause <;> simp [Unreported, LoadError.isReported]

/-- Text that is no document is reported, unless that is for the length of an integer. -/
theorem unreported_parse_iff {source : Option String} {text : String} :
    FailsWith Unreported ((Json.parse limit text).mapError (LoadError.malformed source)) ↔
      HoldsLongInteger limit text := by
  rw [failsWith_mapError]
  exact exists_congr fun error => and_congr_right fun _ => unreported_malformed_iff

theorem Group.unreported_loadText_iff {text : String} :
    FailsWith Unreported (Group.loadText limit legacy text) ↔ HoldsLongInteger limit text ∨
      ∃ document, Json.parse limit text = .ok document ∧ legacy = true ∧ Mistyped document := by
  unfold Group.loadText
  rw [failsWith_bind, unreported_parse_iff]
  simp only [mapError_eq_ok, Group.unreported_load_iff]

/-- A file that exists is loaded from its text, every line of which ends in the same way. -/
theorem RuleSet.unreported_loadFile_iff {file text : String} :
    FailsWith Unreported (RuleSet.loadFile limit legacy file (some text)) ↔
      HoldsLongInteger limit (String.ofList (normalizeLines text.toList)) ∨
        ∃ document, Json.parse limit (String.ofList (normalizeLines text.toList)) = .ok document ∧
          RuleSet.Mistyped legacy document := by
  unfold RuleSet.loadFile
  dsimp only
  rw [failsWith_bind, unreported_parse_iff]
  simp only [mapError_eq_ok, RuleSet.unreported_load_iff]

/-- **Every load gives a value or a report, except on mistyped documents and on integers that are too long to be
read.** A tree or a rule is mistyped for an upgrade only, and a rule set also without one. -/
theorem loaders_answer_iff (limit : Json.DigitLimit) (legacy : Bool) (document : Json) (text file : String) :
    (Answers (Group.load legacy document) ↔ ¬(legacy = true ∧ Mistyped document)) ∧
    (Answers (Rule.load legacy document) ↔ ¬(legacy = true ∧ Rule.Mistyped document)) ∧
    (Answers (RuleSet.load legacy document) ↔ ¬RuleSet.Mistyped legacy document) ∧
    (Answers (Group.loadText limit legacy text) ↔ ¬(HoldsLongInteger limit text ∨
      ∃ document, Json.parse limit text = .ok document ∧ legacy = true ∧ Mistyped document)) ∧
    (Answers (RuleSet.loadFile limit legacy file (some text)) ↔
      ¬(HoldsLongInteger limit (String.ofList (normalizeLines text.toList)) ∨
        ∃ document, Json.parse limit (String.ofList (normalizeLines text.toList)) = .ok document ∧
          RuleSet.Mistyped legacy document)) := by
  refine ⟨?_, ?_, ?_, ?_, ?_⟩
  · exact answers_iff.trans (not_congr Group.unreported_load_iff)
  · exact answers_iff.trans (not_congr Rule.unreported_load_iff)
  · exact answers_iff.trans (not_congr RuleSet.unreported_load_iff)
  · exact answers_iff.trans (not_congr Group.unreported_loadText_iff)
  · exact answers_iff.trans (not_congr RuleSet.unreported_loadFile_iff)

/-- A group whose children are a number stops an upgrade without a report, and rules that are null stop the loading
of a rule set. -/
theorem not_all_answered :
    ¬(∀ legacy document, Answers (Group.load legacy document)) ∧
      ¬∀ legacy document, Answers (RuleSet.load legacy document) := by
  constructor
  · intro h
    have hload : Group.load true (.obj [("logic", .str "AND"), ("conditions", .int 5)]) =
        .error (.legacy .childrenNotAList) := by
      rfl
    exact answers_iff.mp (h true _) ⟨_, hload, rfl⟩
  · intro h
    have hload : RuleSet.load false (.obj [("buyRules", .null)]) = .error .rulesNotAList := by
      rfl
    exact answers_iff.mp (h false _) ⟨_, hload, rfl⟩

end TradingRules
