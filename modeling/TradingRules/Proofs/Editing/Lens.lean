import TradingRules.Condition.Edit
import TradingRules.Proofs.Editing.Graft
import TradingRules.Proofs.Fallible

/-!
# `Proofs.Editing.Lens` — an edit changes the node it addresses and nothing else

An edit descends as a look-up does. Where the look-up gives a node, the edit puts what the updater makes of it
in its place; where the look-up meets an obstacle, the edit meets the same one and the updater is not called.
So what an edit does is known from a look-up and a graft, and the laws of edits follow from those of grafts
(`Group.update_lens`).

## Contents
* `updateChild`, `updateChildren_last`, `updateChildren_group`, `updateChildren_leaf` — one segment of an edit;
* `hindered` — what an edit comes to at an obstacle;
* `Group.update_of_leads`, `Group.update_of_obstacle` — edits by what a look-up gives;
* `Group.update_lens` — the laws.
-/

namespace TradingRules

open Fallible

/-- A function from nodes to nodes as one to update with. -/
def Updater.ofFun (f : Condition → Condition) : Updater := fun c => .ok (some (.node (f c)))

/-! ## One segment -/

/-- The children of a group after an edit at the child that the first segment of a path addresses, or below it:
the path ends there, leads on into a group, or goes on below a leaf. -/
def updateChild (f : Updater) (strict : Bool) (path : Path) (position : Nat) (children : List Condition)
    (i : Fin children.length) : Path → Except EditError (List Condition)
  | [] => f (children.get i) >>= fun draft => putChild children i draft
  | segment :: rest => match children.get i with
    | .group logic below => (updateChildren f strict path (position + 1) below segment rest).map fun below =>
        children.set i (.group logic below)
    | .leaf l => if strict then .error (.path ⟨.belowLeaf l.kind, position, path⟩) else .ok children

section Segment

variable {f : Updater} {strict : Bool} {path : Path} {position : Nat} {children : List Condition}

/-- An edit looks for the child that a segment addresses before anything else. -/
theorem updateChildren_eq (segment : Json) (rest : Path) :
    updateChildren f strict path position children segment rest =
      match locate children.length segment with
      | .error fault => .error (.path ⟨fault, position, path⟩)
      | .ok i => updateChild f strict path position children i rest := by
  -- the recursion is on the rest of the path, but the first thing that is looked at is the segment
  delta updateChild updateChildren
  cases rest <;> rfl

theorem updateChildren_of_locate {segment : Json} {fault : PathFault}
    (h : locate children.length segment = .error fault) (rest : Path) :
    updateChildren f strict path position children segment rest = .error (.path ⟨fault, position, path⟩) := by
  rw [updateChildren_eq, h]

/-- The last segment addresses the child to update. -/
theorem updateChildren_last {i : Nat} {child : Condition} (hchild : children[i]? = some child) :
    updateChildren f strict path position children (.int (i : Int)) [] =
      (f child >>= fun draft => putChild children i draft) := by
  obtain ⟨hi, rfl⟩ := List.getElem?_eq_some_iff.mp hchild
  rw [updateChildren_eq, locate_ofNat hi]
  rfl

/-- Any other segment leads on into a group. -/
theorem updateChildren_group {i : Nat} {logic : Logic} {below : List Condition}
    (hchild : children[i]? = some (.group logic below)) (segment : Json) (rest : Path) :
    updateChildren f strict path position children (.int (i : Int)) (segment :: rest) =
      (updateChildren f strict path (position + 1) below segment rest).map fun below =>
        children.set i (.group logic below) := by
  obtain ⟨hi, hchild⟩ := List.getElem?_eq_some_iff.mp hchild
  rw [updateChildren_eq, locate_ofNat hi]
  simp only [updateChild, List.get_eq_getElem, hchild]

theorem updateChildren_leaf {i : Nat} {l : Leaf} (hchild : children[i]? = some (.leaf l)) (segment : Json)
    (rest : Path) :
    updateChildren f strict path position children (.int (i : Int)) (segment :: rest) =
      if strict then .error (.path ⟨.belowLeaf l.kind, position, path⟩) else .ok children := by
  obtain ⟨hi, hchild⟩ := List.getElem?_eq_some_iff.mp hchild
  rw [updateChildren_eq, locate_ofNat hi]
  simp only [updateChild, List.get_eq_getElem, hchild]

end Segment

/-! ## Where a look-up gives a node -/

/-- **An edit at a path that leads to a node puts there what the updater makes of it.** -/
theorem updateChildren_of_leads (f : Condition → Condition) (strict : Bool) (path : Path) {segment : Json}
    {rest : Path} {node : Condition} :
    ∀ {logic : Logic} {children : List Condition} (position : Nat),
      (Condition.group logic children).Leads (segment :: rest) node →
      (updateChildren (.ofFun f) strict path position children segment rest).map (Condition.group logic) =
        .ok (Condition.graft (f node) (.group logic children) (segment :: rest)) := by
  induction rest generalizing segment with
  | nil =>
      intro logic children position h
      cases h with
      | there hchild hrest =>
          cases hrest
          rw [updateChildren_last hchild, Condition.graft_child hchild, Condition.graft_nil]
          rfl
  | cons next rest ih =>
      intro logic children position h
      cases h with
      | there hchild hrest =>
          -- the path goes on, so the child is a group
          cases hrest with
          | there hbelow hrest =>
              obtain ⟨edited, hedited, hgraft⟩ := map_eq_ok.mp (ih (position + 1) (.there hbelow hrest))
              rw [updateChildren_group hchild, hedited, Condition.graft_child hchild, ← hgraft]
              rfl

/-! ## Where a look-up meets an obstacle -/

/-- What an edit comes to at an obstacle that a look-up meets. Below a leaf there is nothing to change, and only
a strict edit fails; it reports the segment that addresses the leaf, a look-up the one after it. -/
def hindered {α : Type} (strict : Bool) (path : Path) (unchanged : α) : PathFault × Nat → Except EditError α
  | (.belowLeaf kind, position) =>
    if strict then .error (.path ⟨.belowLeaf kind, position - 1, path⟩) else .ok unchanged
  | (fault, position) => .error (.path ⟨fault, position, path⟩)

section Obstacle

variable {α β : Type} {strict : Bool} {path : Path}

theorem hindered_of_locate {size : Nat} {segment : Json} {fault : PathFault} (h : locate size segment = .error fault)
    (unchanged : α) (position : Nat) :
    hindered strict path unchanged (fault, position) = .error (.path ⟨fault, position, path⟩) := by
  cases fault with
  | belowLeaf kind => exact absurd h locate_ne_belowLeaf
  | notAnInteger segment => rfl
  | outOfRange index size => rfl

theorem map_hindered (g : α → β) (unchanged : α) (obstacle : PathFault × Nat) :
    (hindered strict path unchanged obstacle).map g = hindered strict path (g unchanged) obstacle := by
  obtain ⟨fault, position⟩ := obstacle
  cases fault with
  | belowLeaf kind => cases strict <;> rfl
  | notAnInteger segment => rfl
  | outOfRange index size => rfl

/-- At an obstacle an edit fails, or leaves everything as it is. -/
theorem hindered_cases (strict : Bool) (path : Path) (obstacle : PathFault × Nat) :
    (∃ e, ∀ {α : Type} (unchanged : α), hindered strict path unchanged obstacle = .error e) ∨
      ∀ {α : Type} (unchanged : α), hindered strict path unchanged obstacle = .ok unchanged := by
  obtain ⟨fault, position⟩ := obstacle
  cases fault with
  | belowLeaf kind =>
      cases strict with
      | false => exact .inr fun _ => rfl
      | true => exact .inl ⟨_, fun _ => rfl⟩
  | notAnInteger segment => exact .inl ⟨_, fun _ => rfl⟩
  | outOfRange index size => exact .inl ⟨_, fun _ => rfl⟩

/-- **An edit meets the obstacle that a look-up meets**, whatever it updates with. -/
theorem updateChildren_of_obstacle {f : Updater} {logic : Logic} {segment : Json} {rest : Path}
    {obstacle : PathFault × Nat} :
    ∀ {children : List Condition} (position : Nat),
      (Condition.group logic children).at? position (segment :: rest) = .error obstacle →
      updateChildren f strict path position children segment rest = hindered strict path children obstacle := by
  induction rest generalizing segment logic with
  | nil =>
      intro children position h
      rcases locate_cases children segment with ⟨i, child, rfl, hchild⟩ | ⟨fault, hfault⟩
      -- a path that ends at a child leads to it
      · rw [Condition.at?_child hchild, Condition.at?] at h
        cases h
      · rw [Condition.at?_of_locate hfault] at h
        cases h
        rw [updateChildren_of_locate hfault, hindered_of_locate hfault]
  | cons next rest ih =>
      intro children position h
      rcases locate_cases children segment with ⟨i, child, rfl, hchild⟩ | ⟨fault, hfault⟩
      · rw [Condition.at?_child hchild] at h
        cases child with
        | leaf l =>
            rw [Condition.at?] at h
            cases h
            rw [updateChildren_leaf hchild]
            rfl
        | group logic' below =>
            obtain ⟨hi, hsame⟩ := List.getElem?_eq_some_iff.mp hchild
            rw [updateChildren_group hchild, ih (position + 1) h, map_hindered, ← hsame, List.set_getElem_self]
      · rw [Condition.at?_of_locate hfault] at h
        cases h
        rw [updateChildren_of_locate hfault, hindered_of_locate hfault]

end Obstacle

/-! ## Edits of a tree -/

namespace Group

variable {root : Group} {p q : Path} {node : Condition} {strict : Bool}

theorem toCondition_injective : Function.Injective toCondition := by
  rintro ⟨logic, children⟩ ⟨logic', children'⟩ h
  cases h
  rfl

/-- A look-up in a tree gives the node that the path leads to. -/
theorem get_eq_ok_iff : root.get p = .ok node ↔ root.toCondition.Leads p node := by
  unfold get
  rw [mapError_eq_ok]
  exact Condition.at?_eq_ok_iff

/-- Look-ups in two trees agree, in node or in error, if they do from the roots down. -/
theorem get_congr {other : Group} (h : root.toCondition.at? 0 p = other.toCondition.at? 0 p) :
    root.get p = other.get p := by
  unfold get
  rw [h]

/-- An edit at a path that leads to a node grafts onto the tree what the updater makes of the node. -/
theorem update_of_leads (hne : p ≠ []) (h : root.toCondition.Leads p node) (f : Condition → Condition)
    (strict : Bool) :
    ∃ edited : Group, root.update p (.ofFun f) strict = .ok edited ∧
      edited.toCondition = Condition.graft (f node) root.toCondition p := by
  cases p with
  | nil => exact absurd rfl hne
  | cons segment rest =>
      obtain ⟨children, hchildren, hgraft⟩ :=
        map_eq_ok.mp (updateChildren_of_leads f strict (segment :: rest) 0 h)
      refine ⟨⟨root.logic, children⟩, ?_, hgraft⟩
      rw [update, hchildren]
      rfl

/-- An edit of a tree meets the obstacle that a look-up meets. -/
theorem update_of_obstacle {obstacle : PathFault × Nat} (h : root.toCondition.at? 0 p = .error obstacle)
    (f : Updater) : root.update p f strict = hindered strict p root obstacle := by
  cases p with
  | nil =>
      rw [Condition.at?] at h
      cases h
  | cons segment rest =>
      rw [update, updateChildren_of_obstacle (f := f) 0 h, map_hindered]

/-- The tree that an edit comes to is known from the graft. -/
theorem update_eq_ok {f : Condition → Condition} {edited : Group} (hne : p ≠ [])
    (h : root.toCondition.Leads p node)
    (hedited : edited.toCondition = Condition.graft (f node) root.toCondition p) :
    root.update p (.ofFun f) strict = .ok edited := by
  obtain ⟨other, hother, hgraft⟩ := update_of_leads hne h f strict
  rw [hother, toCondition_injective (hedited.trans hgraft.symm)]

/-- **An edit and one apart from it may be made in either order.** The other edit may also fail, or leave the
tree as it is: it then does so before the first edit and after it. -/
theorem update_comm {f g : Condition → Condition} {edited : Group} (hne : p ≠ [])
    (h : root.toCondition.Leads p node)
    (hedited : edited.toCondition = Condition.graft (f node) root.toCondition p) (hapart : p.Apart q) :
    edited.update q (.ofFun g) strict =
      (root.update q (.ofFun g) strict >>= fun other => other.update p (.ofFun f) strict) := by
  have hlookup : edited.toCondition.at? 0 q = root.toCondition.at? 0 q := by
    rw [hedited]
    exact h.at?_graft_of_apart hapart (f node) 0
  cases hq : root.toCondition.at? 0 q with
  | ok target =>
      have hleads : root.toCondition.Leads q target := Condition.at?_eq_ok_iff.mp hq
      have hleads' : edited.toCondition.Leads q target := Condition.at?_eq_ok_iff.mp (hlookup.trans hq)
      obtain ⟨other, hother, hgraft⟩ := update_of_leads hapart.ne_nil hleads g strict
      obtain ⟨both, hboth, hgraft'⟩ := update_of_leads hapart.ne_nil hleads' g strict
      have hnode : other.toCondition.Leads p node := by
        rw [hgraft]
        exact hleads.of_apart hapart.symm h (g target)
      have hsame : both.toCondition = Condition.graft (f node) other.toCondition p := by
        rw [hgraft', hedited, hgraft]
        exact h.graft_comm hleads hapart (f node) (g target)
      rw [hother, hboth]
      exact (update_eq_ok hne hnode hsame).symm
  | error obstacle =>
      rw [update_of_obstacle (hlookup.trans hq), update_of_obstacle hq]
      rcases hindered_cases strict q obstacle with ⟨e, herror⟩ | hunchanged
      · rw [herror, herror]
        rfl
      -- the other edit has nothing to change, so the first one is all there is
      · rw [hunchanged, hunchanged]
        exact (update_eq_ok hne h hedited).symm

/-- **An edit is a lens.** At a path other than the root's at which a look-up gives a node, an edit with a
function gives a tree, strict or not, in which
* the path leads to what the function makes of the node;
* a look-up at any path apart from it gives the same node as before, or the same error;
* every group above it keeps its combinator and the number of its children.

An edit that keeps the node gives the tree back, a second edit at the path adds its function to the first, and
an edit at a path apart from it may as well be made first. -/
theorem update_lens (hne : p ≠ []) (hnode : root.get p = .ok node) (f g : Condition → Condition) (strict : Bool) :
    ∃ edited : Group, root.update p (.ofFun f) strict = .ok edited ∧
      edited.get p = .ok (f node) ∧
      (∀ q, p.Apart q → edited.get q = root.get q) ∧
      (∀ r, r <+: p → r ≠ p → ∃ logic before after, root.get r = .ok (.group logic before) ∧
        edited.get r = .ok (.group logic after) ∧ after.length = before.length) ∧
      root.update p Condition.keep strict = .ok root ∧
      edited.update p (.ofFun g) strict = root.update p (.ofFun (g ∘ f)) strict ∧
      ∀ q, p.Apart q → edited.update q (.ofFun g) strict =
        (root.update q (.ofFun g) strict >>= fun other => other.update p (.ofFun f) strict) := by
  have h : root.toCondition.Leads p node := get_eq_ok_iff.mp hnode
  obtain ⟨edited, hupdate, hgraft⟩ := update_of_leads hne h f strict
  have hedited : edited.toCondition.Leads p (f node) := by
    rw [hgraft]
    exact h.graft (f node)
  refine ⟨edited, hupdate, get_eq_ok_iff.mpr hedited, ?apart, ?above, ?keep, ?twice, ?comm⟩
  case apart =>
    intro q hapart
    refine get_congr ?_
    rw [hgraft]
    exact h.at?_graft_of_apart hapart (f node) 0
  case above =>
    intro r habove hr
    obtain ⟨logic, before, after, hbefore, hafter, hlength⟩ := h.group_above habove hr (f node)
    rw [← hgraft] at hafter
    exact ⟨logic, before, after, get_eq_ok_iff.mpr hbefore, get_eq_ok_iff.mpr hafter, hlength⟩
  case keep =>
    exact update_eq_ok (f := id) hne h h.graft_self.symm
  case twice =>
    obtain ⟨twice, htwice, hgraft'⟩ := update_of_leads hne hedited g strict
    rw [hgraft, h.graft_graft] at hgraft'
    rw [htwice]
    exact (update_eq_ok (f := g ∘ f) hne h hgraft').symm
  case comm =>
    intro q hapart
    exact update_comm hne h hgraft hapart

/-- A tree with a group of two leaves beside a leaf. -/
def nested : Group where
  children := [.leaf (.threshold {}), .group .or [.leaf (.cross {}), .leaf (.price {})]]

/-- The crossing is put twice into a group of its own. The price beside it is where it was, and so is the fault
of a segment past it; replacing the leaf at the front may be done first. -/
theorem update_lens_nested :
    ∃ edited : Group, nested.update [.int 1, .int 0] (.ofFun fun c => .group .or [c, c]) = .ok edited ∧
      edited.get [.int 1, .int 0] = .ok (.group .or [.leaf (.cross {}), .leaf (.cross {})]) ∧
      edited.get [.int 1, .int 1] = .ok (.leaf (.price {})) ∧
      edited.get [.int 1, .int 2] = .error ⟨.outOfRange 2 2, 1, [.int 1, .int 2]⟩ ∧
      edited.update [.int 0] (.ofFun fun _ => .leaf (.position {})) =
        (nested.update [.int 0] (.ofFun fun _ => .leaf (.position {})) >>= fun other =>
          other.update [.int 1, .int 0] (.ofFun fun c => .group .or [c, c])) := by
  have hcross : nested.get [.int 1, .int 0] = .ok (.leaf (.cross {})) := rfl
  obtain ⟨edited, hupdate, hget, hapart, -, -, -, hcomm⟩ := update_lens (List.cons_ne_nil _ _) hcross
    (fun c => .group .or [c, c]) (fun _ => .leaf (.position {})) false
  have hprice : Path.Apart [.int 1, .int 0] [.int 1, .int 1] := ⟨by decide, by decide⟩
  have hpast : Path.Apart [.int 1, .int 0] [.int 1, .int 2] := ⟨by decide, by decide⟩
  have hfront : Path.Apart [.int 1, .int 0] [.int 0] := ⟨by decide, by decide⟩
  exact ⟨edited, hupdate, hget, hapart _ hprice, hapart _ hpast, hcomm _ hfront⟩

end Group

end TradingRules
