import TradingRules.Proofs.Editing.Children

/-!
# `Proofs.Editing.Obstacles` — which paths can be edited

A look-up asks at each node whether it is a group, and then whether the segment addresses a child of it. An edit
descends the other way around: it finds the child first, and asks what that is when the path goes on. On one and the
same path the two meet the same obstacle, so a strict edit fails with a path just where a look-up does. What being
strict adds is the one obstacle that an edit may as well pass over, a leaf with segments behind it; what these are
plays no part, as nobody looks at them. At this one obstacle the two also count differently: a look-up names the
segment that leads nowhere, an edit the one before it, by which it came to the leaf.

## Contents
* `Updater.ofOption` — functions that give a node or nothing;
* `Condition.Refuses`, `Condition.at?_eq_error_iff` — the first segment that leads nowhere, and what is wrong with it;
* `Group.RunsPastLeaf`, `Group.at?_eq_belowLeaf_iff` — paths that go on below a leaf;
* `Group.update_ofOption_ne_path` — an edit of a node that there is fails with no path;
* `Group.update_agrees_with_get` — edits and look-ups agree on the paths that there are;
* `Group.get_eq_error_iff`, `Group.failures_located` — which position a look-up reports, and which a strict edit does.
-/

namespace TradingRules

open Fallible

/-- A function from nodes to nodes or nothing as one to update with. -/
def Updater.ofOption (f : Condition → Option Condition) : Updater := fun c => .ok ((f c).map .node)

/-! ## Where a path fails -/

namespace Condition

/-- A segment does not lead on from a node, for a reason: below a leaf there is nothing, and in a group a segment has
to be an integer, and the position of a child. -/
inductive Refuses : Condition → Json → PathFault → Prop
  | belowLeaf (l : Leaf) (segment : Json) : Refuses (.leaf l) segment (.belowLeaf l.kind)
  | notAnInteger {logic : Logic} {children : List Condition} {segment : Json} (h : ∀ i, segment ≠ .int i) :
      Refuses (.group logic children) segment (.notAnInteger segment)
  | outOfRange {logic : Logic} {children : List Condition} {i : Int} (h : i < 0 ∨ (children.length : Int) ≤ i) :
      Refuses (.group logic children) (.int i) (.outOfRange i children.length)

variable {c node : Condition} {path : Path} {position position' : Nat} {segment : Json} {fault : PathFault}

/-- A group refuses the segments that address none of its children. -/
theorem refuses_group_iff {logic : Logic} {children : List Condition} :
    (group logic children).Refuses segment fault ↔ locate children.length segment = .error fault := by
  constructor
  · intro h
    cases h with
    | notAnInteger h =>
        unfold locate
        split
        · exact absurd rfl (h _)
        · exact absurd rfl (h _)
        · rfl
    | @outOfRange _ _ i h =>
        cases i with
        | ofNat n =>
            have hn : ¬n < children.length := by
              simp only [Int.ofNat_eq_natCast] at h
              omega
            rw [locate, dif_neg hn]
            rfl
        | negSucc n => rfl
  · intro h
    unfold locate at h
    split at h
    · next n =>
        by_cases hn : n < children.length
        · rw [dif_pos hn] at h
          cases h
        · rw [dif_neg hn] at h
          cases h
          exact .outOfRange (.inr (Int.ofNat_le.mpr (Nat.le_of_not_lt hn)))
    · next n =>
        cases h
        exact .outOfRange (.inl (Int.negSucc_lt_zero n))
    · next hint hneg =>
        cases h
        refine .notAnInteger fun i => ?_
        cases i with
        | ofNat n => exact hint n
        | negSucc n => exact hneg n

/-- A look-up fails at a segment that its node refuses, whatever follows. -/
theorem Refuses.at?_cons (h : node.Refuses segment fault) (position : Nat) (below : Path) :
    node.at? position (segment :: below) = .error (fault, position) := by
  cases node with
  | leaf l =>
      cases h with
      | belowLeaf => rw [at?]
  | group logic children => exact at?_of_locate (refuses_group_iff.mp h) position below

/-- **A look-up fails at the first segment that leads nowhere**: those before it lead to a node that refuses it. -/
theorem at?_eq_error_iff :
    c.at? position path = .error (fault, position') ↔
      ∃ above segment below node, path = above ++ segment :: below ∧ c.Leads above node ∧
        node.Refuses segment fault ∧ position' = position + above.length := by
  constructor
  · intro h
    induction path generalizing c position with
    | nil =>
        rw [at?] at h
        cases h
    | cons segment rest ih =>
        cases c with
        | leaf l =>
            rw [at?] at h
            cases h
            exact ⟨[], segment, rest, .leaf l, rfl, .here _, .belowLeaf l segment, rfl⟩
        | group logic children =>
            rcases locate_cases children segment with ⟨i, child, rfl, hchild⟩ | ⟨fault', hfault⟩
            · rw [at?_child hchild] at h
              obtain ⟨above, next, below, node, rfl, hleads, hrefuses, rfl⟩ := ih h
              refine ⟨.int i :: above, next, below, node, rfl, .there hchild hleads, hrefuses, ?_⟩
              rw [List.length_cons]
              omega
            · rw [at?_of_locate hfault] at h
              cases h
              exact ⟨[], segment, rest, _, rfl, .here _, refuses_group_iff.mpr hfault, rfl⟩
  · rintro ⟨above, segment, below, node, rfl, hleads, hrefuses, rfl⟩
    rw [hleads.at?_append]
    exact hrefuses.at?_cons (position + above.length) below

/-! ## Paths past a leaf -/

/-- A look-up that has come to a leaf fails at the next segment, whatever it is. -/
theorem Leads.at?_past_leaf {c : Condition} {above : Path} {l : Leaf} (h : c.Leads above (.leaf l)) (position : Nat)
    (segment : Json) (below : Path) :
    c.at? position (above ++ segment :: below) = .error (.belowLeaf l.kind, position + above.length) :=
  at?_eq_error_iff.mpr ⟨above, segment, below, .leaf l, rfl, h, .belowLeaf l segment, rfl⟩

/-- The fault of going below a leaf has a leaf as its reason, and a path to it. -/
theorem exists_leaf_of_at? {kind : LeafKind} (h : c.at? position path = .error (.belowLeaf kind, position')) :
    ∃ above l segment below, path = above ++ segment :: below ∧ c.Leads above (.leaf l) := by
  obtain ⟨above, segment, below, node, hpath, hleads, hrefuses, -⟩ := at?_eq_error_iff.mp h
  cases hrefuses with
  | belowLeaf l => exact ⟨above, l, segment, below, hpath, hleads⟩

end Condition

/-! ## Obstacles -/

section Hindered

variable {α : Type} {path : Path} {unchanged : α}

/-- At an obstacle a strict edit fails with the path. -/
theorem hindered_strict (obstacle : PathFault × Nat) :
    ∃ e, hindered true path unchanged obstacle = .error (.path e) := by
  obtain ⟨fault, position⟩ := obstacle
  cases fault with
  | belowLeaf kind => exact ⟨_, rfl⟩
  | notAnInteger segment => exact ⟨_, rfl⟩
  | outOfRange index size => exact ⟨_, rfl⟩

/-- Being strict matters at a leaf only. -/
theorem hindered_congr {fault : PathFault} (h : ∀ kind, fault ≠ .belowLeaf kind) (position : Nat)
    (strict strict' : Bool) :
    hindered strict path unchanged (fault, position) = hindered strict' path unchanged (fault, position) := by
  cases fault with
  | belowLeaf kind => exact absurd rfl (h kind)
  | notAnInteger segment => rfl
  | outOfRange index size => rfl

end Hindered

/-! ## Edits of a tree -/

namespace Group

variable {root : Group} {path : Path}

/-- The path goes on below a leaf that its first segments lead to. -/
def RunsPastLeaf (root : Group) (path : Path) : Prop :=
  ∃ above l segment below, path = above ++ segment :: below ∧ root.get above = .ok (.leaf l)

/-- **A look-up fails below a leaf** exactly if its path runs past one. -/
theorem at?_eq_belowLeaf_iff :
    (∃ kind position, root.toCondition.at? 0 path = .error (.belowLeaf kind, position)) ↔ root.RunsPastLeaf path := by
  constructor
  · rintro ⟨kind, position, h⟩
    obtain ⟨above, l, segment, below, hpath, hleaf⟩ := Condition.exists_leaf_of_at? h
    exact ⟨above, l, segment, below, hpath, get_eq_ok_iff.mpr hleaf⟩
  · rintro ⟨above, l, segment, below, rfl, hleaf⟩
    exact ⟨_, _, (get_eq_ok_iff.mp hleaf).at?_past_leaf 0 segment below⟩

/-- A look-up in a tree fails where the one from its root down does. -/
theorem exists_get_error_iff :
    (∃ e, root.get path = .error e) ↔ ∃ obstacle, root.toCondition.at? 0 path = .error obstacle := by
  unfold get
  simp [mapError_eq_error]

/-- A node that there is can be removed, the root as well. -/
theorem exists_remove_of_get {node : Condition} (h : root.get path = .ok node) (strict : Bool) :
    ∃ edited, root.remove path strict = .ok edited := by
  rcases List.eq_nil_or_concat' path with rfl | ⟨above, last, rfl⟩
  · exact ⟨{}, rfl⟩
  · obtain ⟨mid, -, hlast⟩ := Condition.leads_append_iff.mp (get_eq_ok_iff.mp h)
    obtain ⟨i, rfl⟩ : ∃ i : Nat, last = .int i := by
      cases hlast with
      | there => exact ⟨_, rfl⟩
    obtain ⟨edited, _, _, _, hremove, -⟩ := exists_remove h strict
    exact ⟨edited, hremove⟩

/-- A node that there is can be replaced or removed. What is put in the place of the root may be no group, but that
is not the fault of the path. -/
theorem update_ofOption_ne_path {node : Condition} (h : root.get path = .ok node) (f : Condition → Option Condition)
    (strict : Bool) (e : PathError) : root.update path (.ofOption f) strict ≠ .error (.path e) := by
  intro herror
  cases hnew : f node with
  | none =>
      have hsame : root.update path (.ofOption f) strict = root.remove path strict :=
        update_congr h (by rw [Updater.ofOption, hnew]; rfl)
      obtain ⟨edited, hremove⟩ := exists_remove_of_get h strict
      rw [hsame, hremove] at herror
      cases herror
  | some new =>
      have hsame : root.update path (.ofOption f) strict = root.update path (.ofFun fun _ => new) strict :=
        update_congr h (by rw [Updater.ofOption, hnew]; rfl)
      rw [hsame] at herror
      by_cases hroot : path = [] → new.isGroup = true
      · obtain ⟨edited, hedited, -⟩ := exists_update h new hroot strict
        rw [hedited] at herror
        cases herror
      · obtain ⟨rfl, hleaf⟩ := Classical.not_imp.mp hroot
        cases new with
        | group logic children => exact hleaf rfl
        | leaf l => cases herror

/-- **Edits and look-ups agree on the paths that there are.** Be the segments what they may, with a function that
gives nodes or nothing a strict edit fails with the path exactly if a look-up does. An edit that is not strict comes
to the same tree or the same error, with one exception: if the path runs past a leaf, it leaves the tree as it is
and does not ask its function. -/
theorem update_agrees_with_get (root : Group) (path : Path) :
    (∀ f : Condition → Option Condition,
      (∃ e, root.update path (.ofOption f) true = .error (.path e)) ↔ ∃ e, root.get path = .error e) ∧
    (¬root.RunsPastLeaf path → ∀ f : Updater, root.update path f false = root.update path f true) ∧
    (root.RunsPastLeaf path → ∀ f : Updater, root.update path f false = .ok root ∧
      ∃ e, root.update path f true = .error (.path e)) := by
  refine ⟨?agree, ?lenient, ?past⟩
  case agree =>
    intro f
    cases hget : root.get path with
    | ok node =>
        refine iff_of_false ?_ nofun
        rintro ⟨e, herror⟩
        exact update_ofOption_ne_path hget f true e herror
    | error e =>
        obtain ⟨obstacle, hobstacle⟩ := exists_get_error_iff.mp ⟨e, hget⟩
        rw [update_of_obstacle hobstacle]
        exact iff_of_true (hindered_strict obstacle) ⟨e, rfl⟩
  case lenient =>
    intro hleaf f
    cases hlookup : root.toCondition.at? 0 path with
    | ok node => exact update_congr (get_eq_ok_iff.mpr (Condition.at?_eq_ok_iff.mp hlookup)) rfl
    | error obstacle =>
        obtain ⟨fault, position⟩ := obstacle
        have hfault : ∀ kind, fault ≠ .belowLeaf kind := by
          rintro kind rfl
          exact hleaf (at?_eq_belowLeaf_iff.mp ⟨kind, position, hlookup⟩)
        rw [update_of_obstacle hlookup, update_of_obstacle hlookup]
        exact hindered_congr hfault position false true
  case past =>
    intro hleaf f
    obtain ⟨kind, position, hlookup⟩ := at?_eq_belowLeaf_iff.mpr hleaf
    rw [update_of_obstacle hlookup, update_of_obstacle hlookup]
    exact ⟨rfl, hindered_strict _⟩

/-- Behind a leaf nothing is looked at, not even whether a segment is a position. In a group the same segment is an
obstacle to every edit. -/
theorem update_agrees_with_get_nested :
    (∀ f, nested.update [.int 0, .bool true] f = .ok nested) ∧
    (∀ f, nested.update [.int 1, .bool true] f = nested.update [.int 1, .bool true] f true) ∧
    ∃ e, nested.update [.int 1, .bool true] (.ofOption fun _ => none) true = .error (.path e) := by
  obtain ⟨-, -, hpast⟩ := update_agrees_with_get nested [.int 0, .bool true]
  obtain ⟨hagree, hlenient, -⟩ := update_agrees_with_get nested [.int 1, .bool true]
  have hleaf : nested.RunsPastLeaf [.int 0, .bool true] := ⟨[.int 0], .threshold {}, .bool true, [], rfl, rfl⟩
  have hgroup : ¬nested.RunsPastLeaf [.int 1, .bool true] := by
    intro hpast
    obtain ⟨kind, position, hlookup⟩ := at?_eq_belowLeaf_iff.mpr hpast
    cases hlookup
  exact ⟨fun f => (hpast hleaf f).1, hlenient hgroup, (hagree fun _ => none).mpr ⟨_, rfl⟩⟩

/-! ## Where failures are reported -/

/-- **A look-up reports the first segment that leads nowhere.** -/
theorem get_eq_error_iff {e : PathError} :
    root.get path = .error e ↔ e.path = path ∧
      ∃ above segment below node, path = above ++ segment :: below ∧ root.get above = .ok node ∧
        node.Refuses segment e.fault ∧ e.position = above.length := by
  constructor
  · intro h
    obtain ⟨⟨fault, position⟩, hlookup, rfl⟩ := mapError_eq_error.mp h
    obtain ⟨above, segment, below, node, hpath, hleads, hrefuses, hposition⟩ :=
      Condition.at?_eq_error_iff.mp hlookup
    rw [Nat.zero_add] at hposition
    exact ⟨rfl, above, segment, below, node, hpath, get_eq_ok_iff.mpr hleads, hrefuses, hposition⟩
  · rintro ⟨hpath, above, segment, below, node, hsplit, hnode, hrefuses, hposition⟩
    have hlookup : root.toCondition.at? 0 path = .error (e.fault, e.position) := by
      apply Condition.at?_eq_error_iff.mpr
      refine ⟨above, segment, below, node, hsplit, get_eq_ok_iff.mp hnode, hrefuses, ?_⟩
      rw [hposition, Nat.zero_add]
    apply mapError_eq_error.mpr
    refine ⟨_, hlookup, ?_⟩
    rw [← hpath]

/-- The root is no leaf, so a path comes below a leaf only after a segment. -/
theorem exists_position_of_belowLeaf {e : PathError} {kind : LeafKind} (h : root.get path = .error e)
    (hfault : e.fault = .belowLeaf kind) : ∃ position, e.position = position + 1 := by
  obtain ⟨-, above, segment, below, node, -, hnode, hrefuses, hposition⟩ := get_eq_error_iff.mp h
  cases above with
  | nil =>
      cases hnode
      rw [hfault] at hrefuses
      cases hrefuses
  | cons first above => exact ⟨above.length, hposition⟩

/-- **Look-ups and strict edits fail with the same fault, and report it at the same position but for one kind.** If a
look-up fails, every strict edit at the path does, and both report the path and what is wrong with the first segment
that leads nowhere, which is where a look-up reports it. So does an edit if this segment is no integer or out of
range; if it goes on below a leaf, an edit reports the segment before it, the one that leads to the leaf. -/
theorem failures_located {e : PathError} (h : root.get path = .error e) :
    (e.path = path ∧
      ∃ above segment below node, path = above ++ segment :: below ∧ root.get above = .ok node ∧
        node.Refuses segment e.fault ∧ e.position = above.length) ∧
    ∀ f : Updater, ∃ e', root.update path f true = .error (.path e') ∧ e'.path = e.path ∧ e'.fault = e.fault ∧
      ((∀ kind, e.fault ≠ .belowLeaf kind) → e'.position = e.position) ∧
      ∀ kind, e.fault = .belowLeaf kind → e.position = e'.position + 1 := by
  refine ⟨get_eq_error_iff.mp h, ?_⟩
  intro f
  obtain ⟨⟨fault, position⟩, hlookup, rfl⟩ := mapError_eq_error.mp h
  have hupdate : root.update path f true = hindered true path root (fault, position) := update_of_obstacle hlookup f
  cases fault with
  | notAnInteger segment => exact ⟨⟨.notAnInteger segment, position, path⟩, hupdate, rfl, rfl, fun _ => rfl, nofun⟩
  | outOfRange index size => exact ⟨⟨.outOfRange index size, position, path⟩, hupdate, rfl, rfl, fun _ => rfl, nofun⟩
  | belowLeaf kind =>
      -- an edit counts one less, and as the root is no leaf this is no less than zero
      obtain ⟨before, rfl⟩ : ∃ before, position = before + 1 := exists_position_of_belowLeaf h rfl
      refine ⟨⟨.belowLeaf kind, before, path⟩, hupdate, rfl, rfl, ?_, fun _ _ => rfl⟩
      intro hfault
      exact absurd rfl (hfault kind)

/-- Past the crossing in the inner group a look-up names the segment after it, a strict edit the one that leads to it.
Of a segment out of range beside it both say the same. -/
theorem failures_located_nested :
    nested.get [.int 1, .int 0, .null] = .error ⟨.belowLeaf .cross, 2, [.int 1, .int 0, .null]⟩ ∧
    nested.get [.int 1, .int 2, .null] = .error ⟨.outOfRange 2 2, 1, [.int 1, .int 2, .null]⟩ ∧
    ∀ f : Updater, ∃ e e' : PathError,
      nested.update [.int 1, .int 0, .null] f true = .error (.path e) ∧ e.fault = .belowLeaf .cross ∧ e.position = 1 ∧
      nested.update [.int 1, .int 2, .null] f true = .error (.path e') ∧ e'.fault = .outOfRange 2 2 ∧ e'.position = 1 := by
  have hleaf : nested.get [.int 1, .int 0, .null] = .error ⟨.belowLeaf .cross, 2, [.int 1, .int 0, .null]⟩ := rfl
  have hgroup : nested.get [.int 1, .int 2, .null] = .error ⟨.outOfRange 2 2, 1, [.int 1, .int 2, .null]⟩ := rfl
  refine ⟨hleaf, hgroup, ?_⟩
  intro f
  obtain ⟨e, hedit, -, hfault, -, hbefore⟩ := (failures_located hleaf).2 f
  obtain ⟨e', hedit', -, hfault', hsame, -⟩ := (failures_located hgroup).2 f
  exact ⟨e, e', hedit, hfault, (Nat.succ.inj (hbefore .cross rfl)).symm, hedit', hfault', hsame nofun⟩

/-- It is not true that both always report one position: they do not for a path that goes on below a leaf. -/
theorem not_always_located_alike :
    ¬∀ (root : Group) (path : Path) (f : Updater) (e e' : PathError), root.get path = .error e →
      root.update path f true = .error (.path e') → e'.position = e.position ∧ e'.path = e.path := by
  intro h
  have hlookup : nested.get [.int 0, .int 0] = .error ⟨.belowLeaf .threshold, 1, [.int 0, .int 0]⟩ := rfl
  have hupdate : nested.update [.int 0, .int 0] Condition.keep true =
      .error (.path ⟨.belowLeaf .threshold, 0, [.int 0, .int 0]⟩) := rfl
  have hsame : (0 : Nat) = 1 := (h _ _ _ _ _ hlookup hupdate).1
  exact absurd hsame (by decide)

end Group

end TradingRules
