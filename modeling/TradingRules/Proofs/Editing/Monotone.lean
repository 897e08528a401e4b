import TradingRules.Proofs.Editing.Children
import TradingRules.Proofs.Evaluation.Gaps

/-!
# `Proofs.Editing.Monotone` — what an edit does to the outcome of a tree

Groups combine the outcomes of their children by AND and OR and by nothing else, so a tree can only gain by a node
that passes more often: whatever is put in place of a node, the tree still passes if the new node passes where the
old one did, and its trace stays what it was away from the path. Loosening a combinator and adding to an OR group
are edits of this kind, and so is removing from an AND group, as long as a child is left: a group without children
passes never.

## Contents
* `Trace.at?` — the node of a trace that a path addresses;
* `Condition.Leads.exists_at?` — the trace of the node that a path leads to;
* `Trace.Exchanged` — a trace before and after one of its nodes was exchanged;
* `Condition.Leads.evaluate_graft` — evaluating a tree with another node at a path;
* `Logic.combine_and_iff`, `Logic.combine_or_iff` — when a group passes;
* `Group.edits_keep_passing` — edits that cannot make a tree fail.
-/

namespace TradingRules

open Fallible

/-! ## Traces along a path -/

namespace Trace

/-- The node of a trace that a path addresses. -/
def at? : Trace → Path → Option Trace
  | node, [] => some node
  | .leaf _, _ :: _ => none
  | .group _ _ children, segment :: rest =>
    match locate children.length segment with
    | .error _ => none
    | .ok i => (children.get i).at? rest

variable {logic : Logic} {passed passed' : Bool} {children : List Trace} {i : Nat} {child : Trace}

theorem at?_child (hchild : children[i]? = some child) (rest : Path) :
    (group logic passed children).at? (.int (i : Int) :: rest) = child.at? rest := by
  obtain ⟨hi, rfl⟩ := List.getElem?_eq_some_iff.mp hchild
  rw [at?, locate_ofNat hi]
  rfl

/-- Another child at a position is no matter to a segment that is not this position. -/
theorem at?_set_of_ne {segment : Json} (hne : segment ≠ .int (i : Int)) (new : Trace) (rest : Path) :
    (group logic passed' (children.set i new)).at? (segment :: rest) =
      (group logic passed children).at? (segment :: rest) := by
  cases hlocate : locate children.length segment with
  | error fault =>
      have hlocate' : locate (children.set i new).length segment = .error fault := by rwa [List.length_set]
      rw [at?, at?, hlocate, hlocate']
  | ok j =>
      obtain rfl := locate_eq_ok_iff.mp hlocate
      have hij : i ≠ j.val := by
        rintro rfl
        exact hne rfl
      have hchild : children[j.val]? = some children[j.val] := List.getElem?_eq_getElem j.isLt
      have hchild' : (children.set i new)[j.val]? = some children[j.val] := by rw [List.getElem?_set_ne hij, hchild]
      rw [at?_child hchild, at?_child hchild']

end Trace

/-! ## Outcomes of groups -/

namespace Logic

/-- An AND group passes if it has children and all of them pass. -/
theorem combine_and_iff {outcomes : List Bool} :
    Logic.and.combine outcomes = true ↔ outcomes ≠ [] ∧ ∀ x ∈ outcomes, x = true := by
  cases outcomes with
  | nil => simp [combine]
  | cons x xs => simp [combine]

/-- An OR group passes if one of its children does. -/
theorem combine_or_iff {outcomes : List Bool} : Logic.or.combine outcomes = true ↔ true ∈ outcomes := by
  cases outcomes with
  | nil => simp [combine]
  | cons x xs => simp [combine]

/-- A group none of whose children passes does not pass. -/
theorem combine_eq_false {logic : Logic} {outcomes : List Bool} (h : ∀ x ∈ outcomes, x = false) :
    logic.combine outcomes = false := by
  refine Bool.eq_false_iff.mpr fun hpassed => ?_
  cases logic with
  | and =>
      obtain ⟨hne, hall⟩ := combine_and_iff.mp hpassed
      obtain ⟨x, hx⟩ := List.exists_mem_of_ne_nil _ hne
      cases (h x hx).symm.trans (hall x hx)
  | or => cases h true (combine_or_iff.mp hpassed)

/-- A group that passes still does when one outcome is replaced by one that is no worse. -/
theorem combine_set_mono (logic : Logic) {outcomes : List Bool} {i : Nat} {old new : Bool}
    (hold : outcomes[i]? = some old) (hmono : old = true → new = true) (hpassed : logic.combine outcomes = true) :
    logic.combine (outcomes.set i new) = true := by
  obtain ⟨hi, rfl⟩ := List.getElem?_eq_some_iff.mp hold
  refine logic.combine_mono ?_ hpassed
  have hsame : List.Forall₂ (fun x y : Bool => x = true → y = true) outcomes outcomes :=
    List.forall₂_same.mpr fun _ _ => id
  have hset := forall₂_set hsame i hmono
  rwa [List.set_getElem_self] at hset

end Logic

/-! ## One node exchanged -/

/-- A trace before and after the node at a path was exchanged: it passes if it did and the new node is no worse
than the old one, it has the same outcome if the two nodes have, and nothing else in it changes away from the
path. -/
structure Trace.Exchanged (p : Path) (old new before after : Trace) : Prop where
  mono : (old.passed = true → new.passed = true) → before.passed = true → after.passed = true
  same : old.passed = new.passed → before.passed = after.passed
  apart : ∀ q, p.Apart q → after.at? q = before.at? q

namespace Trace.Exchanged

variable {p : Path} {old new before after : Trace}

theorem here (old new : Trace) : Exchanged [] old new old new where
  mono := id
  same := id
  apart := fun _ hapart => absurd List.nil_prefix hapart.not_prefix

/-- What is exchanged below a child is exchanged below its group. -/
theorem there (h : Exchanged p old new before after) (logic : Logic) {children : List Trace} {i : Nat}
    (hchild : children[i]? = some before) :
    Exchanged (.int (i : Int) :: p) old new (GroupTrace.ofChildren logic children).toTrace
      (GroupTrace.ofChildren logic (children.set i after)).toTrace where
  mono := by
    intro hnode hpassed
    have houtcome : (children.map (·.passed))[i]? = some before.passed := by rw [List.getElem?_map, hchild]; rfl
    show logic.combine ((children.set i after).map (·.passed)) = true
    rw [List.map_set]
    exact logic.combine_set_mono houtcome (h.mono hnode) hpassed
  same := by
    intro hnode
    obtain ⟨hi, rfl⟩ := List.getElem?_eq_some_iff.mp hchild
    show logic.combine (children.map (·.passed)) = logic.combine ((children.set i after).map (·.passed))
    rw [List.map_set, ← h.same hnode, ← List.map_set, List.set_getElem_self]
  apart := by
    intro q hapart
    obtain ⟨hi, -⟩ := List.getElem?_eq_some_iff.mp hchild
    cases q with
    | nil => exact absurd rfl hapart.ne_nil
    | cons segment rest =>
        by_cases hsegment : segment = .int (i : Int)
        · subst hsegment
          refine (at?_child (List.getElem?_set_self hi) rest).trans ?_
          rw [h.apart rest hapart.tail]
          exact (at?_child hchild rest).symm
        · exact at?_set_of_ne hsegment after rest

end Trace.Exchanged

namespace Condition

variable {c node new : Condition} {p : Path} {ctx : Context}

/-- The node that a path leads to is evaluated where the tree is, and the path addresses its trace. -/
theorem Leads.exists_at? (h : c.Leads p node) {s : Trace} (hs : c.evaluate ctx = .ok s) :
    ∃ m, node.evaluate ctx = .ok m ∧ s.at? p = some m := by
  induction h generalizing s with
  | here c => exact ⟨s, hs, by rw [Trace.at?]⟩
  | there hchild _ ih =>
      obtain ⟨traces, htraces, rfl⟩ := evaluate_group_eq_ok.mp hs
      rcases getElem?_cases_of_forall₂ htraces _ with ⟨hnone, -⟩ | ⟨_, t, hsome, htrace, ht⟩
      · rw [hnone] at hchild
        cases hchild
      · cases hsome.symm.trans hchild
        obtain ⟨m, hm, hat⟩ := ih ht
        exact ⟨m, hm, (Trace.at?_child htrace _).trans hat⟩

theorem Leads.exists_evaluate (h : c.Leads p node) {s : Trace} (hs : c.evaluate ctx = .ok s) :
    ∃ m, node.evaluate ctx = .ok m := by
  obtain ⟨m, hm, -⟩ := h.exists_at? hs
  exact ⟨m, hm⟩

/-- **A tree with another node is evaluated as before, but for this node.** -/
theorem Leads.evaluate_graft (h : c.Leads p node) {s m n : Trace} (hs : c.evaluate ctx = .ok s)
    (hm : node.evaluate ctx = .ok m) (hn : new.evaluate ctx = .ok n) :
    ∃ t, (Condition.graft new c p).evaluate ctx = .ok t ∧ Trace.Exchanged p m n s t := by
  induction h generalizing s with
  | here c =>
      cases hs.symm.trans hm
      rw [graft_nil]
      exact ⟨n, hn, .here _ n⟩
  | @there logic children i child node rest hchild _ ih =>
      obtain ⟨traces, htraces, rfl⟩ := evaluate_group_eq_ok.mp hs
      rcases getElem?_cases_of_forall₂ htraces i with ⟨hnone, -⟩ | ⟨_, before, hsome, hbefore, ht⟩
      · rw [hnone] at hchild
        cases hchild
      · cases hsome.symm.trans hchild
        obtain ⟨after, hafter, hexchanged⟩ := ih ht hm
        rw [graft_child hchild]
        exact ⟨_, evaluate_group_eq_ok.mpr ⟨traces.set i after, forall₂_set htraces i hafter, rfl⟩,
          hexchanged.there logic hbefore⟩

/-- A condition is evaluated and passes. -/
def Passes (c : Condition) (ctx : Context) : Prop := ∃ t, c.evaluate ctx = .ok t ∧ t.passed = true

theorem passes_iff {t : Trace} (h : c.evaluate ctx = .ok t) : c.Passes ctx ↔ t.passed = true := by
  constructor
  · rintro ⟨t', ht', hpassed⟩
    cases h.symm.trans ht'
    exact hpassed
  · intro hpassed
    exact ⟨t, h, hpassed⟩

/-- Wherever one condition is evaluated another is too, and passes if the first one does. -/
def Loosened (c d : Condition) : Prop :=
  ∀ ctx s, c.evaluate ctx = .ok s → ∃ t, d.evaluate ctx = .ok t ∧ (s.passed = true → t.passed = true)

/-- A group may be loosened from AND to OR. -/
theorem loosened_or (children : List Condition) : (group .and children).Loosened (group .or children) := by
  intro ctx s hs
  obtain ⟨traces, htraces, rfl⟩ := evaluate_group_eq_ok.mp hs
  refine ⟨_, evaluate_group_eq_ok.mpr ⟨traces, htraces, rfl⟩, ?_⟩
  intro hpassed
  obtain ⟨hne, hall⟩ := Logic.combine_and_iff.mp hpassed
  obtain ⟨x, hx⟩ := List.exists_mem_of_ne_nil _ hne
  exact Logic.combine_or_iff.mpr (hall x hx ▸ hx)

/-- An AND group of several children may lose one of them. -/
theorem loosened_eraseIdx {children : List Condition} (hseveral : 2 ≤ children.length) (i : Nat) :
    (group .and children).Loosened (group .and (children.eraseIdx i)) := by
  intro ctx s hs
  obtain ⟨traces, htraces, rfl⟩ := evaluate_group_eq_ok.mp hs
  have hrest : List.Forall₂ (fun c t => c.evaluate ctx = .ok t) (children.eraseIdx i) (traces.eraseIdx i) := by
    rw [List.eraseIdx_eq_take_drop_succ, List.eraseIdx_eq_take_drop_succ]
    exact List.rel_append (List.forall₂_take i htraces) (List.forall₂_drop (i + 1) htraces)
  refine ⟨_, evaluate_group_eq_ok.mpr ⟨traces.eraseIdx i, hrest, rfl⟩, ?_⟩
  intro hpassed
  obtain ⟨-, hall⟩ := Logic.combine_and_iff.mp hpassed
  refine Logic.combine_and_iff.mpr ⟨?_, ?_⟩
  · -- of two children one is left
    have hlength : children.length = traces.length := htraces.length_eq
    have hleft : (traces.eraseIdx i).length ≠ 0 := by
      rw [List.length_eraseIdx]
      split <;> omega
    intro hnil
    rw [List.map_eq_nil_iff] at hnil
    exact hleft (by rw [hnil]; rfl)
  · intro x hx
    obtain ⟨t, ht, rfl⟩ := List.mem_map.mp hx
    exact hall _ (List.mem_map.mpr ⟨t, List.mem_of_mem_eraseIdx ht, rfl⟩)

/-- A passing OR group passes with a child more. -/
theorem passed_append {children : List Condition} {child : Condition} {s t : Trace}
    (hs : (group .or children).evaluate ctx = .ok s) (ht : (group .or (children ++ [child])).evaluate ctx = .ok t)
    (hpassed : s.passed = true) : t.passed = true := by
  obtain ⟨ss, hss, rfl⟩ := evaluate_group_eq_ok.mp hs
  obtain ⟨ts, hts, rfl⟩ := evaluate_group_eq_ok.mp ht
  have htake := List.forall₂_take children.length hts
  rw [List.take_left] at htake
  -- the children that were there have the traces they had
  have hsame : ss = ts.take children.length :=
    List.right_unique_forall₂' (fun _ _ _ h h' => Except.ok.inj (h.symm.trans h')) hss htake
  have hmem : true ∈ ss.map (·.passed) := Logic.combine_or_iff.mp hpassed
  rw [hsame, List.map_take] at hmem
  exact Logic.combine_or_iff.mpr (List.mem_of_mem_take hmem)

end Condition

/-! ## Edits of a tree -/

namespace Group

variable {root edited : Group} {p : Path} {node new : Condition} {ctx : Context}

/-- What another node at a path does to the trace of a tree. -/
theorem exchanged_of_evaluate (h : root.get p = .ok node)
    (hedited : edited.toCondition = Condition.graft new root.toCondition p) {s t : GroupTrace}
    (hs : root.evaluate ctx = .ok s) (ht : edited.evaluate ctx = .ok t) :
    ∃ m n, node.evaluate ctx = .ok m ∧ new.evaluate ctx = .ok n ∧ Trace.Exchanged p m n s.toTrace t.toTrace := by
  have hleads : root.toCondition.Leads p node := get_eq_ok_iff.mp h
  have hroot : root.toCondition.evaluate ctx = .ok s.toTrace := toCondition_of_evaluate hs
  have hgraft : (Condition.graft new root.toCondition p).evaluate ctx = .ok t.toTrace :=
    hedited ▸ toCondition_of_evaluate ht
  obtain ⟨m, hm⟩ := hleads.exists_evaluate hroot
  obtain ⟨n, hn⟩ := (hleads.graft new).exists_evaluate hgraft
  obtain ⟨t', ht', hexchanged⟩ := hleads.evaluate_graft hroot hm hn
  cases hgraft.symm.trans ht'
  exact ⟨m, n, hm, hn, hexchanged⟩

/-- A tree that is loosened at a node is evaluated where it was, and passes if it did. -/
theorem loosened_of_graft (h : root.get p = .ok node)
    (hedited : edited.toCondition = Condition.graft new root.toCondition p) (hnew : node.Loosened new)
    {s : GroupTrace} (hs : root.evaluate ctx = .ok s) :
    ∃ t, edited.evaluate ctx = .ok t ∧ (s.passed = true → t.passed = true) := by
  have hleads : root.toCondition.Leads p node := get_eq_ok_iff.mp h
  have hroot : root.toCondition.evaluate ctx = .ok s.toTrace := toCondition_of_evaluate hs
  obtain ⟨m, hm⟩ := hleads.exists_evaluate hroot
  obtain ⟨n, hn, hmono⟩ := hnew ctx m hm
  obtain ⟨t', ht', hexchanged⟩ := hleads.evaluate_graft hroot hm hn
  rw [← hedited] at ht'
  obtain ⟨t, ht, rfl⟩ := evaluate_toCondition_eq_ok.mp ht'
  exact ⟨t, ht, hexchanged.mono hmono⟩

/-- **Edits and outcomes.** Another node where a path leads makes a tree that passes if the tree did, as long as
the new node passes if the old one does; that has the same outcome, if the two nodes have; and whose trace is what
it was at every path apart from this one. So a tree that passes still does
* when a group of it is set from AND to OR;
* when a child is appended to an OR group of it;
* when a child is removed from an AND group of it that has another one. -/
theorem edits_keep_passing (root : Group) (p : Path) (ctx : Context) (strict : Bool) :
    (∀ node new, root.get p = .ok node → (p = [] → new.isGroup = true) →
      ∃ edited, root.update p (.ofFun fun _ => new) strict = .ok edited ∧
        ∀ s t, root.evaluate ctx = .ok s → edited.evaluate ctx = .ok t →
          ((node.Passes ctx → new.Passes ctx) → s.passed = true → t.passed = true) ∧
          ((node.Passes ctx ↔ new.Passes ctx) → s.passed = t.passed) ∧
          ∀ q, p.Apart q → t.toTrace.at? q = s.toTrace.at? q) ∧
    (∀ children, root.get p = .ok (.group .and children) →
      ∃ edited, root.setLogic p (.str Logic.or.name) strict = .ok edited ∧
        ∀ s, root.evaluate ctx = .ok s → ∃ t, edited.evaluate ctx = .ok t ∧ (s.passed = true → t.passed = true)) ∧
    (∀ children draft child, root.get p = .ok (.group .or children) → draft.child children.length = .ok child →
      ∃ edited, root.add p draft strict = .ok edited ∧
        ∀ s t, root.evaluate ctx = .ok s → edited.evaluate ctx = .ok t → s.passed = true → t.passed = true) ∧
    (∀ children (i : Nat), root.get p = .ok (.group .and children) → i < children.length → 2 ≤ children.length →
      ∃ edited, root.remove (p ++ [.int (i : Int)]) strict = .ok edited ∧
        ∀ s, root.evaluate ctx = .ok s →
          ∃ t, edited.evaluate ctx = .ok t ∧ (s.passed = true → t.passed = true)) := by
  refine ⟨?node, ?logic, ?add, ?remove⟩
  case node =>
    intro node new h hroot
    obtain ⟨edited, hupdate, hgraft⟩ := exists_update h new hroot strict
    refine ⟨edited, hupdate, ?_⟩
    intro s t hs ht
    obtain ⟨m, n, hm, hn, hexchanged⟩ := exchanged_of_evaluate h hgraft hs ht
    rw [Condition.passes_iff hm, Condition.passes_iff hn]
    exact ⟨hexchanged.mono, fun hsame => hexchanged.same (Bool.eq_iff_iff.mpr hsame), hexchanged.apart⟩
  case logic =>
    intro children h
    obtain ⟨edited, hupdate, hgraft⟩ := exists_update h (.group .or children) (fun _ => rfl) strict
    rw [setLogic_eq_update h]
    exact ⟨edited, hupdate, fun s hs => loosened_of_graft h hgraft (Condition.loosened_or children) hs⟩
  case add =>
    intro children draft child h hdraft
    obtain ⟨edited, hupdate, hgraft⟩ := exists_update h (.group .or (children ++ [child])) (fun _ => rfl) strict
    rw [add_eq_update h hdraft]
    refine ⟨edited, hupdate, ?_⟩
    intro s t hs ht
    obtain ⟨m, n, hm, hn, hexchanged⟩ := exchanged_of_evaluate h hgraft hs ht
    exact hexchanged.mono (Condition.passed_append hm hn)
  case remove =>
    intro children i h hi hseveral
    obtain ⟨edited, hupdate, hgraft⟩ := exists_update h (.group .and (children.eraseIdx i)) (fun _ => rfl) strict
    rw [remove_eq_update h hi]
    exact ⟨edited, hupdate, fun s hs => loosened_of_graft h hgraft (Condition.loosened_eraseIdx hseveral i) hs⟩

/-- A threshold beside an OR group of a crossing and a price. -/
def guarded : Group where
  children := [
    .leaf (.threshold { indicator := some 1, field := "value", operand := .scalar 70.0 }),
    .group .or [.leaf (.cross {}), .leaf (.price { indicator := some 1, field := "value" })]]

/-- A bar on which all of it passes but the crossing, which is not filled in. -/
def calmBar : Snapshot where
  indicators := [(1, .obj [("value", .float 75.0)])]
  price := { closing := .float 60.0 }

/-- The tree passes, and it still does with an empty group in place of the crossing, which leaves the record of the
price alone; with OR at the root; with another crossing beside the first; and without the threshold. -/
theorem edits_keep_passing_guarded :
    ∃ s, guarded.evaluate (.ofBars [calmBar]) = .ok s ∧ s.passed = true ∧
      (∃ edited t, guarded.update [.int 1, .int 0] (.ofFun fun _ => .group .and []) = .ok edited ∧
        edited.evaluate (.ofBars [calmBar]) = .ok t ∧ t.passed = true ∧
        t.toTrace.at? [.int 1, .int 1] = s.toTrace.at? [.int 1, .int 1]) ∧
      (∃ edited t, guarded.setLogic [] (.str "OR") = .ok edited ∧
        edited.evaluate (.ofBars [calmBar]) = .ok t ∧ t.passed = true) ∧
      (∃ edited t, guarded.add [.int 1] (.document (.obj [("type", .str "CROSS")])) = .ok edited ∧
        edited.evaluate (.ofBars [calmBar]) = .ok t ∧ t.passed = true) ∧
      (∃ edited t, guarded.remove [.int 0] = .ok edited ∧
        edited.evaluate (.ofBars [calmBar]) = .ok t ∧ t.passed = true) := by
  obtain ⟨s, hs, hpassed⟩ := exists_ok_of_any (x := guarded.evaluate (.ofBars [calmBar]))
    (p := fun s => s.passed) (by decide +kernel)
  refine ⟨s, hs, hpassed, ?node, ?logic, ?add, ?remove⟩
  case node =>
    obtain ⟨hnode, -⟩ := edits_keep_passing guarded [.int 1, .int 0] (.ofBars [calmBar]) false
    obtain ⟨edited, hupdate, hedited⟩ := hnode (.leaf (.cross {})) (.group .and []) rfl nofun
    obtain ⟨t, ht, -⟩ := exists_ok_of_any (x := edited.evaluate (.ofBars [calmBar])) (p := fun _ => true) (by
      cases hupdate
      decide +kernel)
    obtain ⟨hmono, -, hapart⟩ := hedited s t hs ht
    have hfails : ¬(Condition.leaf (.cross {})).Passes (.ofBars [calmBar]) := by
      rintro ⟨m, hm, hm'⟩
      cases hm
      cases hm'
    exact ⟨edited, t, hupdate, ht, hmono (fun h => absurd h hfails) hpassed, hapart _ ⟨by decide, by decide⟩⟩
  case logic =>
    obtain ⟨-, hlogic, -⟩ := edits_keep_passing guarded [] (.ofBars [calmBar]) false
    obtain ⟨edited, hupdate, hedited⟩ := hlogic guarded.children rfl
    obtain ⟨t, ht, hmono⟩ := hedited s hs
    exact ⟨edited, t, hupdate, ht, hmono hpassed⟩
  case add =>
    obtain ⟨-, -, hadd, -⟩ := edits_keep_passing guarded [.int 1] (.ofBars [calmBar]) false
    obtain ⟨edited, hupdate, hedited⟩ := hadd [.leaf (.cross {}), .leaf (.price { indicator := some 1, field := "value" })]
      (.document (.obj [("type", .str "CROSS")])) (.leaf (.cross {})) rfl rfl
    obtain ⟨t, ht, -⟩ := exists_ok_of_any (x := edited.evaluate (.ofBars [calmBar])) (p := fun _ => true) (by
      cases hupdate
      decide +kernel)
    exact ⟨edited, t, hupdate, ht, hedited s t hs ht hpassed⟩
  case remove =>
    obtain ⟨-, -, -, hremove⟩ := edits_keep_passing guarded [] (.ofBars [calmBar]) false
    obtain ⟨edited, hupdate, hedited⟩ := hremove guarded.children 0 rfl (by decide) (by decide)
    obtain ⟨t, ht, hmono⟩ := hedited s hs
    exact ⟨edited, t, hupdate, ht, hmono hpassed⟩

end Group

end TradingRules
