import TradingRules.Proofs.Condition.Complete
import TradingRules.Proofs.Editing.Children

/-!
# `Proofs.Editing.Siblings` — positions after a child is appended or removed

Paths go by position, so an edit of a group's children may leave a path that addresses another node than it did.
How paths have to be read after such an edit is known from the positions in the one list of children that it
changes: appending at the end moves nobody, and removing a child moves those behind it up by one. Whatever lies
below a child, or apart from the group, is addressed as before.

That nothing else is lost is said by the labels of a tree, which are all of its leaves and combinators from front
to back: without a child they are what they were, with one run taken out.

## Contents
* `Condition.at?_congr_child`, `Condition.toOption_at?_congr_child` — looking up below a child that has moved;
* `Condition.labels`, `Condition.Leads.labels_graft` — the labels of a tree with another node;
* `Group.get_append_congr`, `Group.toOption_get_append_congr` — looking up through a node that is another one now;
* `Group.get_of_not_prefix`, `Group.remove_last` — appending a child;
* `Group.add_remove_paths` — paths after a child is appended and after one is removed.
-/

namespace TradingRules

open Fallible

namespace Condition

/-! ## Children that move -/

section Children

variable {logic logic' : Logic} {children children' : List Condition} {j k : Nat} {child : Condition}

/-- A position past the last child is out of range. -/
theorem at?_of_length_le (h : children.length ≤ j) (position : Nat) (rest : Path) :
    (group logic children).at? position (.int (j : Int) :: rest) =
      .error (.outOfRange j children.length, position) := by
  have hlocate : locate children.length (.int (j : Int)) = .error (.outOfRange j children.length) := by
    simp [locate, Nat.not_lt.mpr h]
  exact at?_of_locate hlocate position rest

/-- A child that two groups share at a position is all that matters below it. -/
theorem at?_congr_child (h' : children'[j]? = some child) (h : children[j]? = some child) (position : Nat)
    (rest : Path) :
    (group logic' children').at? position (.int (j : Int) :: rest) =
      (group logic children).at? position (.int (j : Int) :: rest) := by
  rw [at?_child h', at?_child h]

/-- A child that has moved is looked up at its new position. Where there is none at one position, there is none at
the other, though the faults name the positions. -/
theorem toOption_at?_congr_child (h : children'[j]? = children[k]?) (position : Nat) (rest : Path) :
    ((group logic' children').at? position (.int (j : Int) :: rest)).toOption =
      ((group logic children).at? position (.int (k : Int) :: rest)).toOption := by
  cases hchild : children[k]? with
  | some child => rw [at?_child hchild, at?_child (h.trans hchild)]
  | none =>
      rw [at?_of_length_le (List.getElem?_eq_none_iff.mp hchild),
        at?_of_length_le (List.getElem?_eq_none_iff.mp (h.trans hchild))]
      rfl

end Children

/-! ## Labels -/

/-- What a node is apart from its children: a leaf, or a combinator. -/
def label : Condition → Leaf ⊕ Logic
  | .leaf l => .inl l
  | .group logic _ => .inr logic

/-- The leaves and combinators of a condition, a group before its children. -/
def labels (c : Condition) : List (Leaf ⊕ Logic) := c.nodes.map label

theorem labels_group (logic : Logic) (children : List Condition) :
    (group logic children).labels = .inr logic :: children.flatMap labels := by
  unfold labels
  rw [nodes_group, List.map_cons, List.map_flatMap]
  rfl

/-- **Another node at a path exchanges one run of labels**, and leaves those before it and behind it. -/
theorem Leads.labels_graft {c node : Condition} {p : Path} (h : c.Leads p node) :
    ∃ front back, c.labels = front ++ node.labels ++ back ∧
      ∀ new : Condition, (Condition.graft new c p).labels = front ++ new.labels ++ back := by
  induction h with
  | here c => exact ⟨[], [], by simp, fun new => by simp⟩
  | @there logic children i child node rest hchild _ ih =>
      obtain ⟨front, back, hlabels, hgraft⟩ := ih
      obtain ⟨hi, rfl⟩ := List.getElem?_eq_some_iff.mp hchild
      -- a child with its siblings before it and behind it, be it the one that is there or another
      have hset (new : Condition) : (children.set i new).flatMap labels =
          (children.take i).flatMap labels ++ (new.labels ++ (children.drop (i + 1)).flatMap labels) := by
        rw [List.set_eq_take_append_cons_drop, if_pos hi, List.flatMap_append, List.flatMap_cons]
      refine ⟨.inr logic :: (children.take i).flatMap labels ++ front,
        back ++ (children.drop (i + 1)).flatMap labels, ?_, fun new => ?_⟩
      · have hsame := hset children[i]
        rw [List.set_getElem_self, hlabels] at hsame
        simp [labels_group, hsame]
      · rw [graft_child hchild]
        simp [labels_group, hset, hgraft]

end Condition

/-! ## Edits of a tree -/

namespace Group

section LookUps

variable {root edited : Group} {g q : Path} {node new : Condition}

/-- Look-ups through a node agree in two trees if they do from this node on. -/
theorem get_append_congr (hroot : root.toCondition.Leads g node) (hedited : edited.toCondition.Leads g new)
    (h : new.at? g.length q = node.at? g.length q) : edited.get (g ++ q) = root.get (g ++ q) := by
  refine get_congr ?_
  rw [hedited.at?_append, hroot.at?_append, Nat.zero_add, h]

theorem toOption_get (root : Group) (path : Path) :
    (root.get path).toOption = (root.toCondition.at? 0 path).toOption := by
  unfold get
  cases root.toCondition.at? 0 path <;> rfl

/-- Look-ups through a node lead to the same nodes in two trees, on two paths, if they do from this node on. -/
theorem toOption_get_append_congr {q' : Path} (hroot : root.toCondition.Leads g node)
    (hedited : edited.toCondition.Leads g new)
    (h : (new.at? g.length q).toOption = (node.at? g.length q').toOption) :
    (edited.get (g ++ q)).toOption = (root.get (g ++ q')).toOption := by
  rw [toOption_get, toOption_get, hedited.at?_append, hroot.at?_append, Nat.zero_add, h]

/-- With a child more at the end of a group every other node has the path that it had. Only paths that end at the
group or above it lead to a node that has changed. -/
theorem get_of_not_prefix {logic : Logic} {children : List Condition} {child : Condition}
    (hroot : root.toCondition.Leads g (.group logic children))
    (hedited : edited.toCondition = Condition.graft (.group logic (children ++ [child])) root.toCondition g)
    (hq : ¬q <+: g) (h : root.get q = .ok node) : edited.get q = .ok node := by
  rw [← h]
  by_cases hbelow : g <+: q
  · obtain ⟨r, rfl⟩ := hbelow
    have hgroup : edited.toCondition.Leads g (.group logic (children ++ [child])) := hedited ▸ hroot.graft _
    refine get_append_congr hroot hgroup ?_
    cases hroot.of_append (get_eq_ok_iff.mp h) with
    | here =>
        rw [List.append_nil] at hq
        exact absurd List.prefix_rfl hq
    | there hchild _ =>
        obtain ⟨hi, -⟩ := List.getElem?_eq_some_iff.mp hchild
        exact Condition.at?_congr_child ((List.getElem?_append_left hi).trans hchild) hchild _ _
  · refine get_congr ?_
    rw [hedited]
    exact hroot.at?_graft_of_apart ⟨hbelow, hq⟩ _ 0

/-- Removing the last child of a group takes back that it was appended. -/
theorem remove_last {logic : Logic} {children : List Condition} {child : Condition}
    (hroot : root.toCondition.Leads g (.group logic children))
    (hedited : edited.toCondition = Condition.graft (.group logic (children ++ [child])) root.toCondition g)
    (strict : Bool) : edited.remove (g ++ [.int children.length]) strict = .ok root := by
  have hgroup : edited.get g = .ok (.group logic (children ++ [child])) :=
    get_eq_ok_iff.mpr (hedited ▸ hroot.graft _)
  have hlast : children.length < (children ++ [child]).length := by simp
  have herase : (children ++ [child]).eraseIdx children.length = children := by
    rw [List.eraseIdx_append_of_length_le (Nat.le_refl _)]
    simp
  obtain ⟨back, hback, hgraft⟩ := exists_update hgroup (.group logic children) (fun _ => rfl) strict
  rw [hedited, hroot.graft_graft, hroot.graft_self] at hgraft
  rw [remove_eq_update hgroup hlast, herase, hback, toCondition_injective hgraft]

end LookUps

/-- **Paths after an edit of children.** A child that is appended to a group is addressed behind the others, every
node keeps its path, the group and those above it apart, and removing the child gives the tree back.

After a child is removed, the group has the children before it and those behind it, in their order: a path through
one before it leads where it led, a path through another leads where the path one further led, or to nothing as
that did, and a path apart from the group where it led. Of the labels of the tree those of the child are taken out
in one piece. -/
theorem add_remove_paths (root : Group) (g : Path) (strict : Bool) :
    (∀ logic children draft child, root.get g = .ok (.group logic children) →
      draft.child children.length = .ok child →
      ∃ edited, root.add g draft strict = .ok edited ∧
        edited.get g = .ok (.group logic (children ++ [child])) ∧
        edited.get (g ++ [.int children.length]) = .ok child ∧
        (∀ q node, ¬q <+: g → root.get q = .ok node → edited.get q = .ok node) ∧
        edited.remove (g ++ [.int children.length]) strict = .ok root) ∧
    ∀ (i : Nat) (lost : Condition), root.get (g ++ [.int i]) = .ok lost →
      ∃ edited logic before after, root.remove (g ++ [.int i]) strict = .ok edited ∧
        root.get g = .ok (.group logic (before ++ lost :: after)) ∧ before.length = i ∧
        edited.get g = .ok (.group logic (before ++ after)) ∧
        (∀ j : Nat, j < i → ∀ r, edited.get (g ++ .int j :: r) = root.get (g ++ .int j :: r)) ∧
        (∀ j : Nat, i ≤ j → ∀ r,
          (edited.get (g ++ .int j :: r)).toOption = (root.get (g ++ .int (j + 1 : Nat) :: r)).toOption) ∧
        (∀ q, g.Apart q → edited.get q = root.get q) ∧
        ∃ front back, root.toCondition.labels = front ++ lost.labels ++ back ∧
          edited.toCondition.labels = front ++ back := by
  refine ⟨?add, ?remove⟩
  case add =>
    intro logic children draft child h hdraft
    have hroot : root.toCondition.Leads g (.group logic children) := get_eq_ok_iff.mp h
    obtain ⟨edited, hadd, hgraft⟩ := exists_update h (.group logic (children ++ [child])) (fun _ => rfl) strict
    have hgroup : edited.toCondition.Leads g (.group logic (children ++ [child])) := hgraft ▸ hroot.graft _
    have hlast : (children ++ [child])[children.length]? = some child := List.getElem?_concat_length
    refine ⟨edited, (add_eq_update h hdraft strict).trans hadd, get_eq_ok_iff.mpr hgroup, ?_, ?_, ?_⟩
    · exact get_eq_ok_iff.mpr (Condition.leads_append_iff.mpr ⟨_, hgroup, .there hlast (.here _)⟩)
    · exact fun q node hq hnode => get_of_not_prefix hroot hgraft hq hnode
    · exact remove_last hroot hgraft strict
  case remove =>
    intro i lost h
    obtain ⟨edited, logic, before, after, hremove, hroot, rfl, hgraft⟩ := exists_remove h strict
    have hgroup : edited.toCondition.Leads g (.group logic (before ++ after)) := hgraft ▸ hroot.graft _
    refine ⟨edited, logic, before, after, hremove, get_eq_ok_iff.mpr hroot, rfl, get_eq_ok_iff.mpr hgroup,
      ?before, ?behind, ?apart, ?labels⟩
    case before =>
      intro j hj r
      have hchild : before[j]? = some before[j] := List.getElem?_eq_getElem hj
      exact get_append_congr hroot hgroup (Condition.at?_congr_child ((List.getElem?_append_left hj).trans hchild)
        ((List.getElem?_append_left hj).trans hchild) _ _)
    case behind =>
      intro j hj r
      refine toOption_get_append_congr hroot hgroup (Condition.toOption_at?_congr_child ?_ _ _)
      rw [List.getElem?_append_right hj, List.getElem?_append_right (Nat.le_succ_of_le hj), Nat.succ_sub hj]
      rfl
    case apart =>
      intro q hapart
      refine get_congr ?_
      rw [hgraft]
      exact hroot.at?_graft_of_apart hapart _ 0
    case labels =>
      obtain ⟨front, back, hlabels, hgrafted⟩ := hroot.labels_graft
      refine ⟨front ++ .inr logic :: before.flatMap Condition.labels, after.flatMap Condition.labels ++ back, ?_, ?_⟩
      · rw [hlabels, Condition.labels_group]
        simp
      · rw [hgraft, hgrafted, Condition.labels_group]
        simp

/-- A position test that is read from a document is appended to the inner group and taken out again. Without its
crossing the group has the price where the crossing was, and nothing where the price was. -/
theorem add_remove_paths_nested :
    (∃ edited, nested.add [.int 1] (.document (.obj [("type", .str "POSITION")])) = .ok edited ∧
      edited.get [.int 1, .int 2] = .ok (.leaf (.position {})) ∧
      edited.get [.int 1, .int 1] = .ok (.leaf (.price {})) ∧
      edited.remove [.int 1, .int 2] = .ok nested) ∧
    ∃ edited, nested.remove [.int 1, .int 0] = .ok edited ∧
      (edited.get [.int 1, .int 0]).toOption = some (.leaf (.price {})) ∧
      (edited.get [.int 1, .int 1]).toOption = none ∧
      edited.get [.int 0] = .ok (.leaf (.threshold {})) := by
  have hgroup : nested.get [.int 1] = .ok (.group .or [.leaf (.cross {}), .leaf (.price {})]) := rfl
  have hcross : nested.get [.int 1, .int 0] = .ok (.leaf (.cross {})) := rfl
  obtain ⟨hadd, hremove⟩ := add_remove_paths nested [.int 1] false
  constructor
  · obtain ⟨edited, hedited, -, hlast, hkept, hback⟩ :=
      hadd _ _ (.document (.obj [("type", .str "POSITION")])) (.leaf (.position {})) hgroup rfl
    exact ⟨edited, hedited, hlast, hkept [.int 1, .int 1] _ (by decide) rfl, hback⟩
  · obtain ⟨edited, _, _, _, hedited, -, -, -, -, hbehind, hapart, -⟩ := hremove 0 _ hcross
    refine ⟨edited, hedited, hbehind 0 (Nat.zero_le _) [], hbehind 1 (Nat.zero_le _) [], ?_⟩
    exact hapart [.int 0] ⟨by decide, by decide⟩

end Group

end TradingRules
