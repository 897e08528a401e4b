import TradingRules.Condition.Path

/-!
# `Proofs.Editing.Graft` — another node at a path

A path leads to a node step by step, each segment being the position of a child. Putting another node there
gives a tree in which everything the path does not touch can be looked up as before, with the same answer or
the same fault: a group on the way keeps its combinator and the number of its children, and so the positions
of all of them.

## Contents
* `Path.Apart` — paths of which neither leads on from the other;
* `Condition.Leads` — a path leads to a node; `Condition.at?_eq_ok_iff`;
* `Condition.leads_append_iff`, `Leads.at?_append` — paths in two parts;
* `Condition.graft` — the tree with another node at a path;
* `Leads.graft`, `Leads.graft_self`, `Leads.graft_graft` — looking up what was put, putting what was there,
  putting twice;
* `Leads.at?_graft_of_apart`, `Leads.graft_comm`, `Leads.group_above` — what is not on the path, and what is
  above it.
-/

namespace TradingRules

/-! ## Paths -/

/-- Neither path leads on from the other, so what one addresses lies outside of what the other does. -/
structure Path.Apart (p q : Path) : Prop where
  not_prefix : ¬ p <+: q
  not_prefix' : ¬ q <+: p

namespace Path.Apart

variable {p q : Path} {segment other : Json}

theorem symm (h : p.Apart q) : q.Apart p := ⟨h.not_prefix', h.not_prefix⟩

/-- The empty path leads on to every other one. -/
theorem ne_nil (h : p.Apart q) : q ≠ [] := by
  rintro rfl
  exact h.not_prefix' List.nil_prefix

theorem tail (h : Apart (segment :: p) (segment :: q)) : p.Apart q where
  not_prefix := fun hpq => h.not_prefix (List.cons_prefix_cons.mpr ⟨rfl, hpq⟩)
  not_prefix' := fun hqp => h.not_prefix' (List.cons_prefix_cons.mpr ⟨rfl, hqp⟩)

end Path.Apart

/-! ## Looking up -/

/-- A segment is the position of a child, or it is at fault. -/
theorem locate_cases (children : List Condition) (segment : Json) :
    (∃ (i : Nat) (child : Condition), segment = .int (i : Int) ∧ children[i]? = some child) ∨
      ∃ fault, locate children.length segment = .error fault := by
  cases hlocate : locate children.length segment with
  | error fault => exact .inr ⟨fault, rfl⟩
  | ok i =>
      have hchild : children[i.val]? = some children[i.val] := List.getElem?_eq_getElem i.isLt
      exact .inl ⟨i.val, children[i.val], locate_eq_ok_iff.mp hlocate, hchild⟩

/-- No segment of its own goes below a leaf. -/
theorem locate_ne_belowLeaf {size : Nat} {segment : Json} {kind : LeafKind} :
    locate size segment ≠ .error (.belowLeaf kind) := by
  intro h
  unfold locate at h
  split at h
  · split at h <;> cases h
  · cases h
  · cases h

namespace Condition

variable {logic : Logic} {children : List Condition} {i : Nat} {child : Condition}

theorem at?_child (hchild : children[i]? = some child) (position : Nat) (rest : Path) :
    (group logic children).at? position (.int (i : Int) :: rest) = child.at? (position + 1) rest := by
  obtain ⟨hi, rfl⟩ := List.getElem?_eq_some_iff.mp hchild
  rw [at?, locate_ofNat hi]
  rfl

theorem at?_of_locate {segment : Json} {fault : PathFault} (h : locate children.length segment = .error fault)
    (position : Nat) (rest : Path) :
    (group logic children).at? position (segment :: rest) = .error (fault, position) := by
  rw [at?, h]

/-- A path leads from a condition to a node of it. -/
inductive Leads : Condition → Path → Condition → Prop
  | here (c : Condition) : Leads c [] c
  | there {logic : Logic} {children : List Condition} {i : Nat} {child node : Condition} {rest : Path}
      (hchild : children[i]? = some child) (hrest : Leads child rest node) :
      Leads (group logic children) (.int (i : Int) :: rest) node

/-- A path that leads to a group begins at one. -/
theorem Leads.exists_group {c : Condition} {p : Path} {logic : Logic} {children : List Condition}
    (h : c.Leads p (.group logic children)) : ∃ above below, c = .group above below := by
  cases h with
  | here => exact ⟨logic, children, rfl⟩
  | there => exact ⟨_, _, rfl⟩

/-- A path into a group leads into one of its children. -/
theorem Leads.exists_child {logic : Logic} {children : List Condition} {i : Nat} {rest : Path} {node : Condition}
    (h : (Condition.group logic children).Leads (.int (i : Int) :: rest) node) :
    ∃ child, children[i]? = some child ∧ child.Leads rest node := by
  generalize hsegment : Json.int (i : Int) = segment at h
  cases h with
  | there hchild hrest =>
      cases Int.natCast_inj.mp (Json.int.inj hsegment)
      exact ⟨_, hchild, hrest⟩

/-- **A look-up gives the node that the path leads to**, from whatever position the segments are counted. -/
theorem at?_eq_ok_iff {c node : Condition} {position : Nat} {path : Path} :
    c.at? position path = .ok node ↔ c.Leads path node := by
  constructor
  · intro h
    induction path generalizing c position with
    | nil =>
        rw [at?] at h
        cases h
        exact .here _
    | cons segment rest ih =>
        cases c with
        | leaf l =>
            rw [at?] at h
            cases h
        | group logic children =>
            rcases locate_cases children segment with ⟨i, child, rfl, hchild⟩ | ⟨fault, hfault⟩
            · rw [at?_child hchild] at h
              exact .there hchild (ih h)
            · rw [at?_of_locate hfault] at h
              cases h
  · intro h
    induction h generalizing position with
    | here c => rw [at?]
    | there hchild _ ih =>
        rw [at?_child hchild]
        exact ih

/-- A path leads on from the node that its first part leads to. -/
theorem leads_append_iff {c node : Condition} {p q : Path} :
    c.Leads (p ++ q) node ↔ ∃ mid, c.Leads p mid ∧ mid.Leads q node := by
  constructor
  · intro h
    induction p generalizing c with
    | nil => exact ⟨c, .here c, h⟩
    | cons segment p ih =>
        cases h with
        | there hchild hrest =>
            obtain ⟨mid, hmid, hnode⟩ := ih hrest
            exact ⟨mid, .there hchild hmid, hnode⟩
  · rintro ⟨mid, hmid, hnode⟩
    induction hmid with
    | here => exact hnode
    | there hchild _ ih => exact .there hchild (ih hnode)

/-- A look-up goes on from the node that the first part of its path leads to, with a node or with a fault. -/
theorem Leads.at?_append {c mid : Condition} {p : Path} (h : c.Leads p mid) (position : Nat) (q : Path) :
    c.at? position (p ++ q) = mid.at? (position + p.length) q := by
  induction h generalizing position with
  | here => rfl
  | there hchild _ ih =>
      rw [List.cons_append, at?_child hchild, ih, List.length_cons]
      congr 1
      omega

/-- What a longer path leads to, the rest of it leads to from the node in between. -/
theorem Leads.of_append {c mid node : Condition} {p q : Path} (h : c.Leads p mid) (hq : c.Leads (p ++ q) node) :
    mid.Leads q node := by
  have hlookup : c.at? 0 (p ++ q) = .ok node := at?_eq_ok_iff.mpr hq
  rw [h.at?_append] at hlookup
  exact at?_eq_ok_iff.mp hlookup

/-! ## Another node -/

/-- The tree with another node in place of the one that a path leads to. Where the path leads to none, the tree
stays as it is. -/
def graft (new : Condition) : Condition → Path → Condition
  | _, [] => new
  | .leaf l, _ :: _ => .leaf l
  | .group logic children, segment :: rest =>
    match locate children.length segment with
    | .error _ => .group logic children
    | .ok i => .group logic (children.set i (graft new (children.get i) rest))

@[simp] theorem graft_nil (new c : Condition) : graft new c [] = new := by cases c <;> rw [graft]

theorem graft_child (hchild : children[i]? = some child) (new : Condition) (rest : Path) :
    graft new (group logic children) (.int (i : Int) :: rest) =
      group logic (children.set i (graft new child rest)) := by
  obtain ⟨hi, rfl⟩ := List.getElem?_eq_some_iff.mp hchild
  rw [graft, locate_ofNat hi]
  rfl

theorem getElem?_set_of_child (hchild : children[i]? = some child) (new : Condition) :
    (children.set i new)[i]? = some new := by
  obtain ⟨hi, -⟩ := List.getElem?_eq_some_iff.mp hchild
  exact List.getElem?_set_self hi

/-- Another child at a position is no matter to a segment that is not this position: positions and their number
stay what they were. -/
theorem at?_set_of_ne {segment : Json} (hne : segment ≠ .int (i : Int)) (new : Condition) (position : Nat)
    (rest : Path) :
    (group logic (children.set i new)).at? position (segment :: rest) =
      (group logic children).at? position (segment :: rest) := by
  rcases locate_cases children segment with ⟨j, child, rfl, hchild⟩ | ⟨fault, hfault⟩
  · have hij : i ≠ j := by
      rintro rfl
      exact hne rfl
    have hchild' : (children.set i new)[j]? = some child := by rw [List.getElem?_set_ne hij, hchild]
    rw [at?_child hchild, at?_child hchild']
  · have hfault' : locate (children.set i new).length segment = .error fault := by rwa [List.length_set]
    rw [at?_of_locate hfault, at?_of_locate hfault']

namespace Leads

variable {c node : Condition} {p q : Path}

/-- What is put at a path is what the path leads to. -/
theorem graft (h : c.Leads p node) (new : Condition) : (graft new c p).Leads p new := by
  induction h with
  | here c =>
      rw [graft_nil]
      exact .here new
  | there hchild _ ih =>
      rw [graft_child hchild]
      exact .there (getElem?_set_of_child hchild _) ih

/-- Putting the node there that is there changes nothing. -/
theorem graft_self (h : c.Leads p node) : Condition.graft node c p = c := by
  induction h with
  | here c => rw [graft_nil]
  | there hchild _ ih =>
      obtain ⟨hi, rfl⟩ := List.getElem?_eq_some_iff.mp hchild
      rw [graft_child hchild, ih, List.set_getElem_self]

/-- Of two nodes that are put at one path the second counts. -/
theorem graft_graft (h : c.Leads p node) (first second : Condition) :
    Condition.graft second (Condition.graft first c p) p = Condition.graft second c p := by
  induction h with
  | here c => rw [graft_nil, graft_nil]
  | there hchild _ ih =>
      rw [graft_child hchild, graft_child (getElem?_set_of_child hchild _), graft_child hchild, List.set_set, ih]

/-- **Looking up apart from a node that is put gives what it did**, be it a node or a fault. -/
theorem at?_graft_of_apart (h : c.Leads p node) (hapart : p.Apart q) (new : Condition) (position : Nat) :
    (Condition.graft new c p).at? position q = c.at? position q := by
  induction h generalizing q position with
  | here c => exact absurd List.nil_prefix hapart.not_prefix
  | @there logic children i child node rest hchild _ ih =>
      cases q with
      | nil => exact absurd rfl hapart.ne_nil
      | cons segment other =>
          rw [graft_child hchild]
          by_cases hsegment : segment = .int (i : Int)
          · subst hsegment
            rw [at?_child (getElem?_set_of_child hchild _), at?_child hchild]
            exact ih hapart.tail (position + 1)
          · exact at?_set_of_ne hsegment _ position other

/-- A node that is put apart from a path leaves what the path leads to. -/
theorem of_apart {other : Condition} (h : c.Leads p node) (hapart : p.Apart q) (hq : c.Leads q other)
    (new : Condition) : (Condition.graft new c p).Leads q other := by
  have hlookup : (Condition.graft new c p).at? 0 q = c.at? 0 q := h.at?_graft_of_apart hapart new 0
  exact at?_eq_ok_iff.mp (hlookup.trans (at?_eq_ok_iff.mpr hq))

/-- **Nodes that are put apart from each other may be put in either order.** -/
theorem graft_comm {other : Condition} (hp : c.Leads p node) (hq : c.Leads q other) (hapart : p.Apart q)
    (new new' : Condition) :
    Condition.graft new' (Condition.graft new c p) q = Condition.graft new (Condition.graft new' c q) p := by
  induction hp generalizing q with
  | here c => exact absurd List.nil_prefix hapart.not_prefix
  | @there logic children i child node rest hchild _ ih =>
      cases hq with
      | here => exact absurd rfl hapart.ne_nil
      | @there _ _ j sibling _ rest' hsibling hrest' =>
          rw [graft_child hchild, graft_child hsibling]
          by_cases hij : i = j
          -- through the same child: the paths part further down
          · subst hij
            cases Option.some.inj (hchild.symm.trans hsibling)
            rw [graft_child (getElem?_set_of_child hchild _), graft_child (getElem?_set_of_child hchild _),
              List.set_set, List.set_set, ih hrest' hapart.tail]
          -- through two children, which are replaced independently
          · have hsibling' : (children.set i (Condition.graft new child rest))[j]? = some sibling := by
              rw [List.getElem?_set_ne hij, hsibling]
            have hchild' : (children.set j (Condition.graft new' sibling rest'))[i]? = some child := by
              rw [List.getElem?_set_ne (Ne.symm hij), hchild]
            rw [graft_child hsibling', graft_child hchild', List.set_comm _ _ hij]

/-- **A group above the path keeps its combinator and the number of its children.** -/
theorem group_above {r : Path} (h : c.Leads p node) (habove : r <+: p) (hne : r ≠ p) (new : Condition) :
    ∃ logic before after, c.Leads r (.group logic before) ∧
      (Condition.graft new c p).Leads r (.group logic after) ∧ after.length = before.length := by
  induction h generalizing r with
  | here c => exact absurd (List.prefix_nil.mp habove) hne
  | @there logic children i child node rest hchild _ ih =>
      rw [graft_child hchild]
      cases r with
      | nil => exact ⟨logic, children, _, .here _, .here _, List.length_set⟩
      | cons segment r =>
          obtain ⟨rfl, hrest⟩ := List.cons_prefix_cons.mp habove
          have hne' : r ≠ rest := by
            rintro rfl
            exact hne rfl
          obtain ⟨logic', before, after, hbefore, hafter, hlength⟩ := ih hrest hne'
          exact ⟨logic', before, after, .there hchild hbefore, .there (getElem?_set_of_child hchild _) hafter,
            hlength⟩

end Leads

end Condition

end TradingRules
