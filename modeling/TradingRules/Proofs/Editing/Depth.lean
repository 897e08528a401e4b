import TradingRules.Proofs.Condition.Complete
import TradingRules.Proofs.Editing.Children

/-!
# `Proofs.Editing.Depth` — how deep a tree is after an edit

Depth is computed from the leaves up, the check counts levels from the root down, and an editor that is about to
nest a group asks with the length of a path in hand. The three agree: a path of length `n` that leads to a group
leads to a group on level `n + 1`, so a child of it adds as many levels below that as it has itself, and the tree
becomes no deeper unless they reach past the branch that was deepest before.

## Contents
* `Condition.deepest_append`, `Condition.deepest_set` — the depth of several conditions;
* `Condition.Leads.depth_graft`, `Condition.Leads.depth_append` — the depth of a tree with a deeper node at a path;
* `Condition.tooDeep_not_mem_iff` — when the check says nothing about depth;
* `ReportsDepth` — the messages about depth;
* `Group.depth_add` — the depth of a tree with a child more.
-/

namespace TradingRules

namespace Condition

/-! ## Depth -/

theorem deepest_append (cs : List Condition) (c : Condition) : deepest (cs ++ [c]) = max (deepest cs) c.depth := by
  induction cs with
  | nil => simp [deepest]
  | cons d cs ih => rw [List.cons_append, deepest, deepest, ih, Nat.max_assoc]

/-- A child that is replaced by one at least as deep counts with its new depth. -/
theorem deepest_set {cs : List Condition} {i : Nat} {old new : Condition} (hold : cs[i]? = some old)
    (hdepth : old.depth ≤ new.depth) : deepest (cs.set i new) = max (deepest cs) new.depth := by
  induction cs generalizing i with
  | nil => cases hold
  | cons c cs ih =>
      cases i with
      | zero =>
          cases hold
          rw [List.set_cons_zero, deepest, deepest]
          omega
      | succ i =>
          rw [List.set_cons_succ, deepest, deepest, ih hold, Nat.max_assoc]

namespace Leads

variable {c node : Condition} {p : Path}

/-- **A node that is replaced by one at least as deep** counts with its new depth, on the level it is on. -/
theorem depth_graft (h : c.Leads p node) {new : Condition} (hdepth : node.depth ≤ new.depth) :
    (Condition.graft new c p).depth = max c.depth (p.length + new.depth) := by
  induction h with
  | here c =>
      rw [graft_nil, List.length_nil, Nat.zero_add]
      exact (Nat.max_eq_right hdepth).symm
  | @there logic children i child node rest hchild _ ih =>
      have hbelow := ih hdepth
      have hdeepest : child.depth ≤ deepest children := depth_le_deepest (List.mem_of_getElem? hchild)
      have hset : deepest (children.set i (Condition.graft new child rest)) =
          max (deepest children) (Condition.graft new child rest).depth := deepest_set hchild (by omega)
      rw [graft_child hchild, depth, depth, hset, List.length_cons]
      omega

/-- A node is no deeper than what is left of the tree on its level. -/
theorem depth_le (h : c.Leads p node) : p.length + node.depth ≤ c.depth := by
  have hsame := h.depth_graft (Nat.le_refl node.depth)
  rw [h.graft_self] at hsame
  omega

/-- **A child more** makes a tree as deep as the path to the group, the group itself and the child together, unless
it was deeper before. -/
theorem depth_append {logic : Logic} {children : List Condition} (h : c.Leads p (.group logic children))
    (child : Condition) :
    (Condition.graft (.group logic (children ++ [child])) c p).depth = max c.depth (p.length + 1 + child.depth) := by
  have hbefore := h.depth_le
  rw [depth] at hbefore
  rw [h.depth_graft (by rw [depth, depth, deepest_append]; omega), depth, deepest_append]
  omega

end Leads

/-! ## The check -/

theorem tooDeep_not_mem_groupDefects_iff {limit : Int} {level : Nat} (children : List Condition) :
    (∀ l, Defect.tooDeep l ∉ groupDefects limit level children) ↔ level ≤ limit := by
  unfold groupDefects
  by_cases hdeep : limit < level
  · rw [if_pos hdeep]
    exact iff_of_false (fun h => h limit (by simp)) (by omega)
  · rw [if_neg hdeep]
    refine iff_of_true ?_ (by omega)
    cases children <;> simp

/-- **The check says nothing about the depth of what it walks** exactly if that fits on the levels that are left. -/
theorem tooDeep_not_mem_iff (limit : Int) (c : Condition) (level : Nat) :
    (∀ l, Defect.tooDeep l ∉ c.defects limit level) ↔ (0 < c.depth → (level : Int) + c.depth ≤ limit + 1) := by
  induction c generalizing level with
  | leaf l =>
      rw [defects, depth]
      simp [Leaf.defects]
  | group logic children ih =>
      have hfits : (0 < 1 + deepest children → (level : Int) + (1 + deepest children : Nat) ≤ limit + 1) ↔
          (level : Int) + deepest children ≤ limit := by omega
      rw [defects, depth, defectsAll_eq_flatMap, hfits, group_fits_iff,
        ← tooDeep_not_mem_groupDefects_iff children]
      constructor
      · intro h
        refine ⟨fun l hl => h l (List.mem_append_left _ hl), fun c hc => (ih c hc (level + 1)).mp fun l hl => ?_⟩
        exact h l (List.mem_append_right _ (List.mem_flatMap.mpr ⟨c, hc, hl⟩))
      · rintro ⟨hgroup, hchildren⟩ l hl
        rcases List.mem_append.mp hl with hl | hl
        · exact hgroup l hl
        · obtain ⟨c, hc, hl⟩ := List.mem_flatMap.mp hl
          exact (ih c hc (level + 1)).mpr (hchildren c hc) l hl

end Condition

/-! ## Messages -/

/-- A message reports that a group lies too deep, for some limit. -/
def ReportsDepth (message : String) : Prop := ∃ limit, message = (Defect.tooDeep limit).message

/-- Messages about depth begin with a letter of their own. -/
theorem Defect.head?_message_eq_iff {d : Defect} : d.message.toList.head? = some 'M' ↔ ∃ limit, d = .tooDeep limit := by
  constructor
  · intro h
    cases d with
    | emptyGroup =>
        change "Empty condition group found".toList.head? = some 'M' at h
        simp at h
    | tooDeep limit => exact ⟨limit, rfl⟩
    | incomplete kind part =>
        change (part.message kind).toList.head? = some 'M' at h
        cases kind <;> cases part <;> simp [Part.message] at h
  · rintro ⟨limit, rfl⟩
    have hhead (number : String) : ("Max nesting depth (" ++ number ++ ") exceeded").toList.head? = some 'M' := by
      simp
    exact hhead (toString limit)

theorem Defect.reportsDepth_message_iff {d : Defect} : ReportsDepth d.message ↔ ∃ limit, d = .tooDeep limit := by
  constructor
  · rintro ⟨limit, hsame⟩
    rw [← head?_message_eq_iff, hsame]
    exact head?_message_eq_iff.mpr ⟨limit, rfl⟩
  · rintro ⟨limit, rfl⟩
    exact ⟨limit, rfl⟩

namespace Group

/-- **No message of the check is about depth** exactly if the tree is no deeper than the limit. -/
theorem not_reportsDepth_iff (limit : Int) (g : Group) :
    (∀ message ∈ (g.defects limit).map Defect.message, ¬ReportsDepth message) ↔ g.depth ≤ limit := by
  have hdefects : (∀ message ∈ (g.defects limit).map Defect.message, ¬ReportsDepth message) ↔
      ∀ l, Defect.tooDeep l ∉ g.toCondition.defects limit 1 := by
    simp only [List.forall_mem_map, Defect.reportsDepth_message_iff]
    constructor
    · intro h l hl
      exact h _ hl ⟨l, rfl⟩
    · rintro h _ hd ⟨l, rfl⟩
      exact h l hd
  have hdepth : 0 < g.toCondition.depth := by
    rw [toCondition, Condition.depth]
    omega
  rw [hdefects, Condition.tooDeep_not_mem_iff]
  show _ ↔ (g.toCondition.depth : Int) ≤ limit
  omega

/-- **Depth and nesting.** With a child appended to the group that a path leads to, a tree is as deep as it was, or as
the levels down to the group and those of the child together. So for a group of depth one that is appended to a tree
within a limit the editor's question has the right answer, for the depth and for the check alike. -/
theorem depth_add {root : Group} {g : Path} {logic : Logic} {children : List Condition} {draft : Draft}
    {child : Condition} (h : root.get g = .ok (.group logic children)) (hdraft : draft.child children.length = .ok child)
    (strict : Bool) :
    ∃ edited, root.add g draft strict = .ok edited ∧
      edited.depth = max root.depth (g.length + 1 + child.depth) ∧
      ∀ limit : Int, root.depth ≤ limit → child.depth = 1 →
        (edited.depth ≤ limit ↔ canNest (g.length + 1) limit = true) ∧
        ((∀ message ∈ (edited.defects limit).map Defect.message, ¬ReportsDepth message) ↔
          canNest (g.length + 1) limit = true) := by
  obtain ⟨edited, hadd, hgraft⟩ := exists_update h (.group logic (children ++ [child])) (fun _ => rfl) strict
  have hdepth : edited.depth = max root.depth (g.length + 1 + child.depth) := by
    unfold depth
    rw [hgraft, (get_eq_ok_iff.mp h).depth_append]
  refine ⟨edited, (add_eq_update h hdraft strict).trans hadd, hdepth, ?_⟩
  intro limit hroot hchild
  have hnest : edited.depth ≤ limit ↔ canNest (g.length + 1) limit = true := by
    unfold canNest
    rw [hdepth, hchild, decide_eq_true_iff]
    omega
  exact ⟨hnest, (not_reportsDepth_iff limit edited).trans hnest⟩

/-- An empty group in the inner one makes a tree of depth two a level deeper, which a limit of three allows and a
limit of two does not. -/
theorem depth_add_nested :
    ∃ edited, nested.add [.int 1] (.node (.group .and [])) = .ok edited ∧ edited.depth = 3 ∧
      (∀ message ∈ (edited.defects 3).map Defect.message, ¬ReportsDepth message) ∧
      ¬∀ message ∈ (edited.defects 2).map Defect.message, ¬ReportsDepth message := by
  have hgroup : nested.get [.int 1] = .ok (.group .or [.leaf (.cross {}), .leaf (.price {})]) := rfl
  have hdraft : (Draft.node (.group .and [])).child 2 = .ok (.group .and []) := rfl
  obtain ⟨edited, hadd, hdepth, hlimit⟩ := depth_add hgroup hdraft false
  refine ⟨edited, hadd, hdepth, (hlimit 3 (by decide) rfl).2.mpr rfl, ?_⟩
  rw [(hlimit 2 (by decide) rfl).2]
  decide

end Group

end TradingRules
