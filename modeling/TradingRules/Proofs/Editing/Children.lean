import TradingRules.Proofs.Editing.Lens

/-!
# `Proofs.Editing.Children` — edits of children are edits of their group

Appending a child, removing one and setting a combinator change one group and nothing else: each comes to
putting another group in its place. An edit looks at its updater only where its path leads, so any two updaters
that agree on that node make the same tree.

## Contents
* `Group.update_congr` — an edit is decided by what the updater makes of the node;
* `Group.exists_update` — putting a node at a path that leads somewhere succeeds;
* `Group.setLogic_eq_update`, `Group.add_eq_update`, `Group.remove_eq_update` — the edits of a group;
* `Group.exists_remove` — removing a node that a path leads to succeeds.
-/

namespace TradingRules

open Fallible

/-! ## One node in place of another -/

/-- **An edit asks its updater about the node that its path leads to, and about no other.** Being strict makes no
difference there. -/
theorem updateChildren_congr {f g : Updater} {node : Condition} (hfg : f node = g node) {strict strict' : Bool}
    (path : Path) {segment : Json} {rest : Path} :
    ∀ {logic : Logic} {children : List Condition} (position : Nat),
      (Condition.group logic children).Leads (segment :: rest) node →
      updateChildren f strict path position children segment rest =
        updateChildren g strict' path position children segment rest := by
  induction rest generalizing segment with
  | nil =>
      intro logic children position h
      cases h with
      | there hchild hrest =>
          cases hrest
          rw [updateChildren_last hchild, updateChildren_last hchild, hfg]
  | cons next rest ih =>
      intro logic children position h
      cases h with
      | there hchild hrest =>
          -- the path goes on, so the child is a group
          cases hrest with
          | @there below _ _ _ _ _ hbelow hrest =>
              have hleads : (Condition.group below _).Leads (_ :: rest) node := .there hbelow hrest
              rw [updateChildren_group hchild, updateChildren_group hchild, ih (position + 1) hleads]

/-- Removing the child of a group puts the group without this child in its place. -/
theorem updateChildren_remove {logic : Logic} {children : List Condition} {i : Nat} (hi : i < children.length)
    (strict : Bool) (path : Path) {p : Path} :
    ∀ {above : Logic} {around : List Condition} {segment : Json} {rest : Path} (position : Nat),
      p ++ [.int (i : Int)] = segment :: rest →
      (Condition.group above around).Leads p (.group logic children) →
      (updateChildren (fun _ => .ok none) strict path position around segment rest).map (Condition.group above) =
        .ok (Condition.graft (.group logic (children.eraseIdx i)) (.group above around) p) := by
  induction p with
  | nil =>
      intro above around segment rest position hpath h
      cases hpath
      cases h
      rw [updateChildren_last (List.getElem?_eq_getElem hi), Condition.graft_nil]
      rfl
  | cons first p ih =>
      intro above around segment rest position hpath h
      cases h with
      | there hchild hrest =>
          obtain ⟨above', around', rfl⟩ := hrest.exists_group
          rw [List.cons_append, List.cons.injEq] at hpath
          obtain ⟨rfl, rfl⟩ := hpath
          -- something follows the first segment, if only the child's position
          obtain ⟨next, rest, hnext⟩ : ∃ next rest, p ++ [.int (i : Int)] = next :: rest :=
            List.exists_cons_of_ne_nil (List.append_ne_nil_of_right_ne_nil p (List.cons_ne_nil _ _))
          obtain ⟨edited, hedited, hgraft⟩ := map_eq_ok.mp (ih (position + 1) hnext hrest)
          rw [hnext, updateChildren_group hchild, hedited, Condition.graft_child hchild, ← hgraft]
          rfl

namespace Group

variable {root : Group} {p : Path} {node : Condition} {logic : Logic} {children : List Condition}

/-- Two updaters that agree on the addressed node make the same tree, strict or not. -/
theorem update_congr {f g : Updater} (h : root.get p = .ok node) (hfg : f node = g node) {strict strict' : Bool} :
    root.update p f strict = root.update p g strict' := by
  have hleads : root.toCondition.Leads p node := get_eq_ok_iff.mp h
  cases p with
  | nil =>
      cases hleads
      rw [update, update, hfg]
  | cons segment rest => rw [update, update, updateChildren_congr hfg (segment :: rest) 0 hleads]

/-- **Putting a node where a path leads succeeds**, as long as the root stays a group. -/
theorem exists_update (h : root.get p = .ok node) (new : Condition) (hroot : p = [] → new.isGroup = true)
    (strict : Bool) :
    ∃ edited : Group, root.update p (.ofFun fun _ => new) strict = .ok edited ∧
      edited.toCondition = Condition.graft new root.toCondition p := by
  by_cases hnil : p = []
  · subst hnil
    cases new with
    | leaf l => exact absurd (hroot rfl) Bool.false_ne_true
    | group logic children =>
        refine ⟨⟨logic, children⟩, rfl, ?_⟩
        rw [Condition.graft_nil]
        rfl
  · exact update_of_leads hnil (get_eq_ok_iff.mp h) (fun _ => new) strict

/-- Setting the combinator of a group. -/
theorem setLogic_eq_update (h : root.get p = .ok (.group logic children)) (other : Logic) (strict : Bool) :
    root.setLogic p (.str other.name) strict = root.update p (.ofFun fun _ => .group other children) strict := by
  refine update_congr h ?_
  show (readLogic (.str other.name) >>= fun logic => pure (some (Draft.node (.group logic children)))) = _
  rw [readLogic, Logic.ofName?_name]
  rfl

/-- Appending a child to a group, which may have to be read first. -/
theorem add_eq_update (h : root.get p = .ok (.group logic children)) {draft : Draft} {child : Condition}
    (hdraft : draft.child children.length = .ok child) (strict : Bool) :
    root.add p draft strict = root.update p (.ofFun fun _ => .group logic (children ++ [child])) strict := by
  refine update_congr h ?_
  show (draft.child children.length >>= fun c => pure (some (Draft.node (.group logic (children ++ [c]))))) = _
  rw [hdraft]
  rfl

/-- Removing a child of a group. -/
theorem remove_eq_update (h : root.get p = .ok (.group logic children)) {i : Nat} (hi : i < children.length)
    (strict : Bool) :
    root.remove (p ++ [.int (i : Int)]) strict =
      root.update p (.ofFun fun _ => .group logic (children.eraseIdx i)) strict := by
  obtain ⟨edited, hedited, hgraft⟩ := exists_update h (.group logic (children.eraseIdx i)) (fun _ => rfl) strict
  obtain ⟨segment, rest, hpath⟩ : ∃ segment rest, p ++ [.int (i : Int)] = segment :: rest :=
    List.exists_cons_of_ne_nil (List.append_ne_nil_of_right_ne_nil p (List.cons_ne_nil _ _))
  obtain ⟨below, hbelow, hsame⟩ :=
    map_eq_ok.mp (updateChildren_remove hi strict (segment :: rest) 0 hpath (get_eq_ok_iff.mp h))
  have hwhole : (⟨root.logic, below⟩ : Group) = edited := toCondition_injective (hsame.trans hgraft.symm)
  rw [hedited, hpath, remove, update, hbelow, ← hwhole]
  rfl

/-- Removing a child leaves its group with the children before it and those behind it. -/
theorem exists_remove {i : Nat} {lost : Condition} (h : root.get (p ++ [.int i]) = .ok lost) (strict : Bool) :
    ∃ (edited : Group) (logic : Logic) (before after : List Condition),
      root.remove (p ++ [.int i]) strict = .ok edited ∧
      root.toCondition.Leads p (.group logic (before ++ lost :: after)) ∧ before.length = i ∧
      edited.toCondition = Condition.graft (.group logic (before ++ after)) root.toCondition p := by
  obtain ⟨mid, hmid, hlast⟩ := Condition.leads_append_iff.mp (get_eq_ok_iff.mp h)
  obtain ⟨logic, children, rfl⟩ : ∃ logic children, mid = .group logic children := by
    cases hlast with
    | there => exact ⟨_, _, rfl⟩
  obtain ⟨child, hchild, hhere⟩ := hlast.exists_child
  cases hhere
  obtain ⟨hi, rfl⟩ := List.getElem?_eq_some_iff.mp hchild
  obtain ⟨edited, hedited, hgraft⟩ :=
    exists_update (get_eq_ok_iff.mpr hmid) (.group logic (children.eraseIdx i)) (fun _ => rfl) strict
  refine ⟨edited, logic, children.take i, children.drop (i + 1), ?_, ?_, ?_, ?_⟩
  · rw [remove_eq_update (get_eq_ok_iff.mpr hmid) hi, hedited]
  · rwa [← List.drop_eq_getElem_cons hi, List.take_append_drop]
  · exact List.length_take_of_le (Nat.le_of_lt hi)
  · rw [hgraft, List.eraseIdx_eq_take_drop_succ]

end Group

end TradingRules
