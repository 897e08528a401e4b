import TradingRules.Proofs.Checked
import TradingRules.Proofs.Editing.Graft
import TradingRules.Proofs.Storage.Rules

/-!
# `Proofs.Storage.Untagged` — groups that have lost their tags

Groups in older documents carry no tag. Take the tag from any groups of a stored tree, or make it null: an upgrade
puts it in again, and the tree is loaded as it was stored. Nothing but a missing tag makes the upgrade touch a
group, and a leaf it never touches. Without the upgrade only the root may do without its tag, and only if it is left
out: a group below that has lost its own is no condition any more.

## Contents
* `TagForm`, `Json.untag` — documents some of whose groups have lost their tags;
* `Condition.KeepsTags`, `Condition.upgradeAt_untag`, `Condition.rejected_ofJson_untag` — conditions;
* `Group.load_untag` — trees.
-/

namespace TradingRules

open Fallible

/-! ## Documents without tags -/

/-- What becomes of a tag: it stays, it is left out, or it is null. -/
inductive TagForm where
  | kept
  | removed
  | null
deriving DecidableEq

/-- The fields of an object with its tag in the given form. -/
def TagForm.apply : TagForm → List (String × Json) → List (String × Json)
  | .kept, fields => fields
  | .removed, fields => fields.filter fun field => field.1 ≠ "type"
  | .null, fields => Assoc.insert fields "type" .null

/-- The fields of a stored group with its tag in the given form. -/
def TagForm.groupFields (form : TagForm) (logic items : Json) : List (String × Json) :=
  form.apply [("type", .str groupTag), ("logic", logic), ("conditions", items)]

/-- What becomes of the tags of groups, by the places of the groups. -/
abbrev Tagging := List Nat → TagForm

theorem TagForm.lookup_conditions (form : TagForm) (logic items : Json) :
    (form.groupFields logic items).lookup "conditions" = some items := by
  cases form <;> rfl

namespace Json

mutual

/-- The document at a place with the tags of its groups in the given forms. Leaves stay as they are. -/
def untag (tags : Tagging) (place : List Nat) : Json → Json
  | .obj fields =>
    if fields.lookup "type" = some (.str groupTag) then .obj ((tags place).apply (untagFields tags place fields))
    else .obj fields
  | value => value

/-- The fields of a group with the tags below it in the given forms. -/
def untagFields (tags : Tagging) (place : List Nat) : List (String × Json) → List (String × Json)
  | [] => []
  | (key, value) :: fields =>
    (key, if key = "conditions" then untagChildren tags place value else value) :: untagFields tags place fields

/-- The children of a group. -/
def untagChildren (tags : Tagging) (place : List Nat) : Json → Json
  | .arr items => .arr (untagItems tags place 0 items)
  | value => value

/-- The children of a group from the `i`-th one on. -/
def untagItems (tags : Tagging) (place : List Nat) (i : Nat) : List Json → List Json
  | [] => []
  | item :: items => untag tags (place ++ [i]) item :: untagItems tags place (i + 1) items

end

/-- Every child is at the place that its position gives it. -/
theorem untagItems_eq_mapIdx (tags : Tagging) (place : List Nat) (items : List Json) (i : Nat) :
    untagItems tags place i items = items.mapIdx fun j item => untag tags (place ++ [i + j]) item := by
  induction items generalizing i with
  | nil => rw [untagItems, List.mapIdx_nil]
  | cons item items ih =>
      have hplaces : (fun j item => untag tags (place ++ [i + 1 + j]) item) =
          fun j item => untag tags (place ++ [i + (j + 1)]) item := by
        funext j item
        rw [Nat.add_right_comm, Nat.add_assoc]
      rw [untagItems, ih, List.mapIdx_cons, hplaces]
      rfl

end Json

namespace Condition

variable {tags : Tagging} {place : List Nat}

theorem untag_leaf (l : Leaf) : (Condition.leaf l).toJson.untag tags place = l.toJson := by
  have htag : ¬l.toJson.fields.lookup "type" = some (.str groupTag) := by
    rw [l.lookup_type]
    cases l.kind <;> decide
  rw [toJson, l.toJson_eq, Json.untag, if_neg htag]

/-- A group's own tag, its combinator, and its children with their tags. -/
theorem untag_group (logic : Logic) (children : List Condition) :
    (group logic children).toJson.untag tags place =
      .obj ((tags place).groupFields (.str logic.name)
        (.arr (Json.untagItems tags place 0 (children.map toJson)))) := by
  rw [toJson, toJsonAll_eq_map, Json.untag, if_pos List.lookup_cons_self]
  simp only [Json.untagFields, Json.untagChildren, reduceIte]
  rfl

/-! ## Upgrades -/

/-- A group in any form of its tag is given it, in place of null or after its other fields. -/
theorem perm_tagGroup_groupFields (form : TagForm) (logic items : Json) :
    List.Perm (TagForm.kept.groupFields logic items) (Legacy.tagGroup (form.groupFields logic items)) := by
  cases form with
  | kept => exact List.Perm.refl _
  | null => exact List.Perm.refl _
  | removed =>
      show List.Perm ([("type", .str groupTag)] ++ [("logic", logic), ("conditions", items)])
        ([("logic", logic), ("conditions", items)] ++ [("type", .str groupTag)])
      exact List.perm_append_comm

/-- A group is taken for one in any form of its tag. -/
theorem isGroup_groupFields (form : TagForm) (logic items : Json) : Legacy.IsGroup (form.groupFields logic items) := by
  cases form with
  | kept => exact .inl rfl
  | removed => exact .inr ⟨.inl rfl, nofun, nofun⟩
  | null => exact .inr ⟨.inr rfl, nofun, nofun⟩

/-- **A group whose children can be upgraded is upgraded to the group with its tag**, which it keeps or is given. -/
theorem upgradeAt_groupFields (form : TagForm) (logic : Json) {path : List Nat} {items upgraded : List Json}
    (hitems : Legacy.upgradeItems path 0 items = .ok upgraded) :
    ∃ fields, Legacy.upgradeAt path (.obj (form.groupFields logic (.arr items))) = .ok (.obj fields) ∧
      List.Perm (TagForm.kept.groupFields logic (.arr upgraded)) fields := by
  have hinsert : Assoc.insert (form.groupFields logic (.arr items)) "conditions" (.arr upgraded) =
      form.groupFields logic (.arr upgraded) := by
    cases form <;> rfl
  refine ⟨_, ?_, perm_tagGroup_groupFields form logic (.arr upgraded)⟩
  rw [Legacy.upgradeAt_of_isGroup path (isGroup_groupFields form logic _),
    Legacy.upgradeFields_eq (form.lookup_conditions logic _), Legacy.upgradeChildren, hitems]
  show Except.ok (Json.obj (Legacy.tagGroup (Assoc.insert _ "conditions" (.arr upgraded)))) = _
  rw [hinsert]

/-- Conditions each of which an upgrade restores are restored together. -/
theorem upgradeItems_untag {children : List Condition}
    (h : ∀ c ∈ children, ∀ (place path : List Nat), ∃ d,
      Legacy.upgradeAt path (c.toJson.untag tags place) = .ok d ∧ Respelled c.toJson d)
    (place path : List Nat) (i : Nat) :
    ∃ items, Legacy.upgradeItems path i (Json.untagItems tags place i (children.map toJson)) = .ok items ∧
      RespelledItems (children.map toJson) items := by
  induction children generalizing i with
  | nil => exact ⟨[], by rw [List.map_nil, Json.untagItems, Legacy.upgradeItems], .nil⟩
  | cons c children ih =>
      obtain ⟨hc, hchildren⟩ := List.forall_mem_cons.mp h
      obtain ⟨d, hd, hspelled⟩ := hc (place ++ [i]) (path ++ [i])
      obtain ⟨items, hitems, hrest⟩ := ih hchildren (i + 1)
      refine ⟨d :: items, ?_, .cons hspelled hrest⟩
      rw [List.map_cons, Json.untagItems, Legacy.upgradeItems, hd, hitems]
      rfl

/-- **An upgrade restores the tags of a condition**, whichever of its groups have lost theirs. -/
theorem upgradeAt_untag (c : Condition) (place path : List Nat) :
    ∃ d, Legacy.upgradeAt path (c.toJson.untag tags place) = .ok d ∧ Respelled c.toJson d := by
  induction c generalizing place path with
  | leaf l =>
      refine ⟨_, ?_, .same _⟩
      rw [untag_leaf]
      exact (Condition.leaf l).upgradeAt_respelled (.same _) path
  | group logic children ih =>
      obtain ⟨items, hitems, hspelled⟩ := upgradeItems_untag ih place path 0
      obtain ⟨fields, hfields, hperm⟩ := upgradeAt_groupFields (tags place) (.str logic.name) hitems
      refine ⟨.obj fields, ?_, ?_⟩
      · rw [untag_group]
        exact hfields
      · rw [toJson, toJsonAll_eq_map]
        exact .obj (.field (.same _) (.same _) (.field (.same _) (.same _) (.field (.same _) (.arr hspelled) .nil))) hperm

end Condition

/-! ## Without an upgrade -/

namespace Condition

variable {tags : Tagging}

/-- One rejected item is in the way of all. -/
theorem rejected_ofItems {items : List Json} {item : Json} (hitem : item ∈ items) (h : (ofJson item).Rejected)
    (i : Nat) : (ofItems i items).Rejected := by
  induction hitem generalizing i with
  | head items =>
      rw [ofItems]
      exact Checked.rejected_seq (.inl (Checked.rejected_map (Checked.rejected_under _ h)))
  | tail other _ ih =>
      rw [ofItems]
      exact Checked.rejected_seq (.inr (ih (i + 1)))

/-- Every group of a condition at a place has its tag. -/
def KeepsTags (tags : Tagging) (place : List Nat) (c : Condition) : Prop :=
  ∀ below logic children, c.Leads (Path.ofPositions below) (group logic children) → tags (place ++ below) = .kept

/-- A group keeps its tags if it has its own and its children keep theirs. -/
theorem keepsTags_group_iff {place : List Nat} {logic : Logic} {children : List Condition} :
    (group logic children).KeepsTags tags place ↔
      tags place = .kept ∧ ∀ (i : Nat) child, children[i]? = some child → child.KeepsTags tags (place ++ [i]) := by
  constructor
  · intro h
    refine ⟨?_, ?_⟩
    · have hhere := h [] logic children (.here _)
      rwa [List.append_nil] at hhere
    · intro i child hchild below logic' children' hbelow
      have hthere := h (i :: below) logic' children' (.there hchild hbelow)
      rwa [List.append_cons] at hthere
  · rintro ⟨hhere, hchildren⟩ below logic' children' h
    cases below with
    | nil => rwa [List.append_nil]
    | cons i below =>
        obtain ⟨child, hchild, hrest⟩ := Leads.exists_child h
        rw [List.append_cons]
        exact hchildren i child hchild below logic' children' hrest

/-- Children that keep their tags are stored as they were. -/
theorem untagItems_eq_self {place : List Nat} {children : List Condition}
    (h : ∀ (i : Nat) child, children[i]? = some child → child.toJson.untag tags (place ++ [i]) = child.toJson) :
    Json.untagItems tags place 0 (children.map toJson) = children.map toJson := by
  rw [Json.untagItems_eq_mapIdx]
  refine List.ext_getElem? fun i => ?_
  rw [List.getElem?_mapIdx, List.getElem?_map]
  cases hchild : children[i]? with
  | none => rfl
  | some child =>
      show some (child.toJson.untag tags (place ++ [0 + i])) = some child.toJson
      rw [Nat.zero_add, h i child hchild]

/-- A condition that keeps its tags is stored as it was. -/
theorem untag_eq_self {c : Condition} {place : List Nat} (h : c.KeepsTags tags place) :
    c.toJson.untag tags place = c.toJson := by
  induction c generalizing place with
  | leaf l => rw [untag_leaf, toJson]
  | group logic children ih =>
      obtain ⟨hhere, hchildren⟩ := keepsTags_group_iff.mp h
      have hsame := untagItems_eq_self fun i child hchild =>
        ih child (List.mem_of_getElem? hchild) (hchildren i child hchild)
      rw [untag_group, hhere, hsame, toJson, toJsonAll_eq_map]
      rfl

/-- The stored form of a child, with the tags it keeps. -/
theorem mem_untagItems {place : List Nat} {children : List Condition} {i : Nat} {child : Condition}
    (hchild : children[i]? = some child) :
    child.toJson.untag tags (place ++ [i]) ∈ Json.untagItems tags place 0 (children.map toJson) := by
  refine List.mem_of_getElem? (i := i) ?_
  rw [Json.untagItems_eq_mapIdx, List.getElem?_mapIdx, List.getElem?_map, hchild, Nat.zero_add]
  rfl

/-- The children of a group are rejected if one of them is, in whatever form the group's tag is. -/
theorem rejected_ofFields (form : TagForm) (logic : Json) {items : List Json} {item : Json} (hitem : item ∈ items)
    (h : (ofJson item).Rejected) : (ofFields (form.groupFields logic (.arr items))).Rejected := by
  rw [ofFields_of_lookup (form.lookup_conditions logic _), ofList]
  exact Checked.rejected_under _ (rejected_ofItems hitem h 0)

/-- **A condition in which a group has lost its tag is rejected.** -/
theorem rejected_ofJson_untag {c : Condition} {place : List Nat} (h : ¬c.KeepsTags tags place) :
    (ofJson (c.toJson.untag tags place)).Rejected := by
  induction c generalizing place with
  | leaf l =>
      refine absurd ?_ h
      intro below logic children hbelow
      obtain ⟨_, _, hgroup⟩ := hbelow.exists_group
      cases hgroup
  | group logic children ih =>
      rw [untag_group, ofJson]
      cases hform : tags place with
      | removed => exact Checked.rejected_fail .untagged
      | null => exact Checked.rejected_fail .unknownTag
      | kept =>
          -- the group itself has its tag, so one below it has not
          have hbelow : ∃ (i : Nat) (child : Condition), children[i]? = some child ∧
              ¬child.KeepsTags tags (place ++ [i]) := by
            by_contra hall
            refine h (keepsTags_group_iff.mpr ⟨hform, ?_⟩)
            intro i child hchild
            by_contra hlost
            exact hall ⟨i, child, hchild, hlost⟩
          obtain ⟨i, child, hchild, hlost⟩ := hbelow
          have hrejected := ih child (List.mem_of_getElem? hchild) hlost
          exact Checked.rejected_under _ (Checked.rejected_seq (.inr
            (rejected_ofFields .kept _ (mem_untagItems hchild) hrejected)))

end Condition

/-! ## Trees -/

namespace Group

/-- The tag of a group below the root is lost, or that of the root is null. -/
def LosesTag (g : Group) (tags : Tagging) : Prop :=
  tags [] = .null ∨ ∃ place logic children, place ≠ [] ∧ tags place ≠ .kept ∧
    g.toCondition.Leads (Path.ofPositions place) (.group logic children)

variable {g : Group} {tags : Tagging}

/-- A tree loses a tag below its root if a child does not keep its tags. -/
theorem losesTag_of_child {i : Nat} {child : Condition} (hchild : g.children[i]? = some child)
    (h : ¬child.KeepsTags tags [i]) : g.LosesTag tags := by
  unfold Condition.KeepsTags at h
  push Not at h
  obtain ⟨below, logic, children, hbelow, hlost⟩ := h
  exact .inr ⟨i :: below, logic, children, List.cons_ne_nil _ _, hlost, .there hchild hbelow⟩

theorem rejected_ofJson_untag (h : g.LosesTag tags) : (Group.ofJson (g.toJson.untag tags [])).Rejected := by
  have hfields : g.toJson.untag tags [] = _ := Condition.untag_group g.logic g.children
  rw [hfields, Group.ofJson]
  rcases h with hroot | ⟨place, logic, children, hplace, hlost, hleads⟩
  · rw [hroot]
    exact Checked.rejected_seq (.inl (Checked.rejected_seq (.inl (Checked.rejected_map
      (Checked.rejected_under _ (Checked.rejected_fail .wrongWord))))))
  · obtain ⟨i, below, rfl⟩ := List.exists_cons_of_ne_nil hplace
    obtain ⟨child, hchild, hrest⟩ := Condition.Leads.exists_child hleads
    have hloses : ¬child.KeepsTags tags ([] ++ [i]) := fun hkeeps => hlost (hkeeps below logic children hrest)
    exact Checked.rejected_seq (.inr (Condition.rejected_ofFields _ _ (Condition.mem_untagItems hchild)
      (Condition.rejected_ofJson_untag hloses)))

/-- A tree that has lost no tag but that of its root is read as it was. -/
theorem ofJson_untag (h : ¬g.LosesTag tags) : Group.ofJson (g.toJson.untag tags []) = .ok g := by
  have hchildren : Json.untagItems tags [] 0 (g.children.map Condition.toJson) = g.children.map Condition.toJson := by
    refine Condition.untagItems_eq_self fun i child hchild => Condition.untag_eq_self ?_
    by_contra hlost
    exact h (losesTag_of_child hchild hlost)
  have hfields : g.toJson.untag tags [] = _ := Condition.untag_group g.logic g.children
  have hread : List.Forall₂ (fun c d => Condition.ofJson d = .ok c) g.children (g.children.map Condition.toJson) := by
    rw [List.forall₂_map_right_iff, List.forall₂_same]
    intro c _
    exact c.ofJson_respelled (.same _)
  have hbelow : ∀ form : TagForm, Condition.ofFields (form.groupFields (.str g.logic.name)
      (.arr (g.children.map Condition.toJson))) = .ok g.children := by
    intro form
    rw [Condition.ofFields_of_lookup (form.lookup_conditions _ _), Condition.ofList,
      Condition.ofItems_of_forall₂ hread 0, Checked.under_ok]
  have hlogic : ∀ form : TagForm, Logic.read (form.groupFields (.str g.logic.name)
      (.arr (g.children.map Condition.toJson))) = .ok g.logic := by
    intro form
    cases form <;> cases g.logic <;> rfl
  have hroot : checkRootTag ((tags []).groupFields (.str g.logic.name) (.arr (g.children.map Condition.toJson))) =
      .ok () := by
    cases hform : tags [] with
    | kept => rfl
    | removed => rfl
    | null => exact absurd (.inl hform) h
  rw [hfields, Group.ofJson, hchildren, hroot, hlogic, hbelow]
  rfl

/-- A tree is loaded by an upgrade as it was stored, whichever tags it has lost. -/
theorem load_upgraded_untag (g : Group) (tags : Tagging) : load true (g.toJson.untag tags []) = .ok g := by
  have hupgraded : ∃ d, Legacy.upgradeAt [] (g.toJson.untag tags []) = .ok d ∧ Respelled g.toJson d :=
    g.toCondition.upgradeAt_untag [] []
  obtain ⟨d, hd, hspelled⟩ := hupgraded
  have hupgrade : upgradeIf true (g.toJson.untag tags []) = .ok d := by
    unfold upgradeIf Legacy.upgrade
    rw [if_pos rfl, hd]
    rfl
  unfold load
  rw [hupgrade]
  show (Group.ofJson d).toLoad .tree = .ok g
  rw [g.ofJson_respelled hspelled]
  rfl

/-- **Groups are given back the tags that they have lost.** Whichever groups of a stored tree have lost their tags,
an upgrade loads the tree as it was stored. Without one it is loaded as long as none but the root has lost its tag,
and the root's is left out and not null; any other document has issues. -/
theorem load_untag (g : Group) (tags : Tagging) :
    load true (g.toJson.untag tags []) = .ok g ∧
      (load false (g.toJson.untag tags []) = .ok g ↔ ¬g.LosesTag tags) ∧
      ((∃ issues, load false (g.toJson.untag tags []) = .error (.invalid .tree issues)) ↔ g.LosesTag tags) := by
  have hread : ¬g.LosesTag tags → load false (g.toJson.untag tags []) = .ok g := by
    intro h
    show (Group.ofJson (g.toJson.untag tags [])).toLoad .tree = .ok g
    rw [ofJson_untag h]
    rfl
  have hrejected : g.LosesTag tags →
      ∃ issues, load false (g.toJson.untag tags []) = .error (.invalid .tree issues) := by
    intro h
    obtain ⟨issues, hissues⟩ := rejected_ofJson_untag h
    refine ⟨issues, ?_⟩
    show (Group.ofJson (g.toJson.untag tags [])).toLoad .tree = _
    rw [hissues]
    rfl
  refine ⟨load_upgraded_untag g tags, ⟨?_, hread⟩, ⟨?_, hrejected⟩⟩
  · intro hok h
    obtain ⟨issues, hissues⟩ := hrejected h
    rw [hok] at hissues
    cases hissues
  · rintro ⟨issues, hissues⟩
    by_contra h
    rw [hread h] at hissues
    cases hissues

/-- A tree with groups at three levels. -/
def nestedTree : Group where
  children := [
    .leaf (.position {}),
    .group .or [.group .and [.leaf (.price { indicator := some 3, field := "mid", price := .highest })], .group .and []]]

/-- The tags of the root and of the innermost group are left out, and that of the group between them is null. -/
def nestedTags : Tagging
  | [] => .removed
  | [1] => .null
  | [1, 0] => .removed
  | _ => .kept

/-- The tree is loaded from the document without these tags by an upgrade only. -/
theorem load_untag_nested :
    nestedTree.toJson.untag nestedTags [] =
        .obj [("logic", .str "AND"), ("conditions", .arr [
          .obj [("type", .str "POSITION"), ("field", .str ""), ("operator", .str "LTE"), ("value", .float 0.0)],
          .obj [("type", .null), ("logic", .str "OR"), ("conditions", .arr [
            .obj [("logic", .str "AND"), ("conditions", .arr [
              .obj [("type", .str "PRICE"), ("indicatorRef", .int 3), ("field", .str "mid"), ("operator", .str "GT"),
                ("priceField", .str "highPrice"), ("index", .int 0)]])],
            .obj [("type", .str "GROUP"), ("logic", .str "AND"), ("conditions", .arr [])]])]])] ∧
      load true (nestedTree.toJson.untag nestedTags []) = .ok nestedTree ∧
      ∃ issues, load false (nestedTree.toJson.untag nestedTags []) = .error (.invalid .tree issues) := by
  have hloses : nestedTree.LosesTag nestedTags :=
    .inr ⟨[1], .or, _, by decide, by decide, .there rfl (.here _)⟩
  obtain ⟨hupgraded, -, hrejected⟩ := load_untag nestedTree nestedTags
  exact ⟨by rfl, hupgraded, hrejected.mpr hloses⟩

end Group

end TradingRules
