import Mathlib.Data.List.Nodup
import TradingRules.Proofs.Condition.Complete
import TradingRules.Proofs.Editing.Depth

/-!
# `Proofs.Condition.Messages` — one message for each defect

What the check of a tree says is told node by node. A node has a place, the positions of the children on the way
down to it, and lies on the level that is one more than the length of this. Places in lexicographic order are the
order of a walk that visits a group before its children and these from left to right. In this order every node
reports what is wrong with it, each defect once; no two defects share a text, so a text occurs as often as there
are nodes with the defect. Only the texts about depth depend on the limit.

## Contents
* `LeafKind.required`, `Leaf.lacks` — the parts of a leaf, and those of them that are missing;
* `Defect.message_inj` — no two defects that can be found share a text;
* `Condition.placed` — the nodes of a condition with their places; `mem_placed_iff`, `pairwise_placed`;
* `Condition.flaws`, `Condition.found` — the defects of a node; `Condition.defects_eq_flatMap_found`;
* `Group.one_message_per_defect` — the messages of the check.
-/

namespace TradingRules

/-! ## Parts of a leaf -/

/-- The parts that a kind of leaf needs, in the order in which the check asks for them. -/
def LeafKind.required : LeafKind → List Part
  | .threshold => [.indicator, .field]
  | .cross => [.indicator, .field, .target, .targetField]
  | .price => [.indicator, .field]
  | .position => [.field]

/-- A part of a leaf is missing: an indicator that is not chosen, or a field without a name. -/
def Leaf.lacks : Leaf → Part → Bool
  | .threshold t, .indicator => t.indicator.isNone
  | .threshold t, .field => t.field.isEmpty
  | .cross c, .indicator => c.indicator.isNone
  | .cross c, .field => c.field.isEmpty
  | .cross c, .target => c.target.isNone
  | .cross c, .targetField => (c.targetField.getD "").isEmpty
  | .price p, .indicator => p.indicator.isNone
  | .price p, .field => p.field.isEmpty
  | .position p, .field => p.field.isEmpty
  | _, _ => false

theorem LeafKind.nodup_required (kind : LeafKind) : kind.required.Nodup := by cases kind <;> decide

/-- Only a part that a leaf needs can be missing. -/
theorem Leaf.mem_required_of_lacks {l : Leaf} {part : Part} (h : l.lacks part = true) :
    part ∈ l.kind.required := by
  cases l <;> cases part <;> simp_all [lacks, kind, LeafKind.required]

theorem Part.filter_eq_flatMap (missing : Part → Bool) (parts : List Part) :
    parts.filter missing = parts.flatMap fun part => part.ifMissing (missing part) := by
  induction parts with
  | nil => rfl
  | cons part parts ih =>
      rw [List.filter_cons, List.flatMap_cons, ih, ifMissing]
      split <;> rfl

/-- A leaf is asked for each part that it needs. -/
theorem Leaf.missing_eq_filter (l : Leaf) : l.missing = l.kind.required.filter l.lacks := by
  rw [Part.filter_eq_flatMap]
  cases l with
  | threshold t => simp [missing, kind, LeafKind.required, lacks]
  | cross c => simp [missing, kind, LeafKind.required, lacks]
  | price p => simp [missing, kind, LeafKind.required, lacks]
  | position p => simp [missing, kind, LeafKind.required, lacks]

/-! ## Texts -/

/-- The defects that a check can find with any limit. -/
def Defect.lasting : List Defect :=
  .emptyGroup :: [LeafKind.threshold, .cross, .price, .position].flatMap fun kind =>
    kind.required.map (.incomplete kind)

/-- A check with the limit can find the defect. -/
def Defect.Possible (limit : Int) (d : Defect) : Prop := d = .tooDeep limit ∨ d ∈ lasting

theorem Defect.incomplete_mem_lasting {kind : LeafKind} {part : Part} (h : part ∈ kind.required) :
    incomplete kind part ∈ lasting := by
  refine List.mem_cons_of_mem _ (List.mem_flatMap.mpr ⟨kind, ?_, List.mem_map_of_mem h⟩)
  cases kind <;> decide

theorem Defect.nodup_message_lasting : (lasting.map message).Nodup := by decide +kernel

/-- No other defect has a text about depth. -/
theorem Defect.message_ne_of_mem_lasting {d : Defect} (h : d ∈ lasting) (limit : Int) :
    d.message ≠ (tooDeep limit).message := by
  intro heq
  obtain ⟨l, rfl⟩ := head?_message_eq_iff.mp (heq ▸ head?_message_eq_iff.mpr ⟨limit, rfl⟩)
  simp [lasting] at h

/-- **No two defects that a check can find share a text.** -/
theorem Defect.message_inj {limit : Int} {d e : Defect} (hd : d.Possible limit) (he : e.Possible limit)
    (h : d.message = e.message) : d = e := by
  rcases hd with rfl | hd
  · rcases he with rfl | he
    · rfl
    · exact absurd h.symm (message_ne_of_mem_lasting he limit)
  · rcases he with rfl | he
    · exact absurd h (message_ne_of_mem_lasting hd limit)
    · exact List.inj_on_of_nodup_map nodup_message_lasting hd he h

namespace Condition

/-! ## Places -/

mutual

/-- The nodes of a condition with their places, a group before its children. -/
def placed : Condition → List (List Nat × Condition)
  | .leaf l => [([], .leaf l)]
  | .group logic children => ([], .group logic children) :: placedFrom 0 children

/-- The nodes of children with their places in the group, the first child being at a position. -/
def placedFrom (i : Nat) : List Condition → List (List Nat × Condition)
  | [] => []
  | child :: children => (child.placed.map fun x => (i :: x.1, x.2)) ++ placedFrom (i + 1) children

end

/-- A place among children is the position of one of them and a place in it. -/
theorem mem_placedFrom_iff {i : Nat} {cs : List Condition} {place : List Nat} {node : Condition} :
    (place, node) ∈ placedFrom i cs ↔
      ∃ j child rest, cs[j]? = some child ∧ (rest, node) ∈ child.placed ∧ place = (i + j) :: rest := by
  induction cs generalizing i with
  | nil => simp [placedFrom]
  | cons c cs ih =>
      rw [placedFrom, List.mem_append, ih, List.mem_map]
      constructor
      · rintro (⟨⟨rest, _⟩, hrest, heq⟩ | ⟨j, child, rest, hchild, hrest, rfl⟩)
        · cases heq
          exact ⟨0, c, rest, rfl, hrest, rfl⟩
        · exact ⟨j + 1, child, rest, hchild, hrest, by rw [Nat.add_assoc, Nat.add_comm 1]⟩
      · rintro ⟨j, child, rest, hchild, hrest, rfl⟩
        cases j with
        | zero =>
            cases hchild
            exact .inl ⟨(rest, node), hrest, rfl⟩
        | succ j => exact .inr ⟨j, child, rest, hchild, hrest, by rw [Nat.add_assoc, Nat.add_comm 1]⟩

/-- **The places of a condition are the paths that lead to its nodes.** -/
theorem mem_placed_iff {c node : Condition} {place : List Nat} :
    (place, node) ∈ c.placed ↔ c.Leads (Path.ofPositions place) node := by
  induction c generalizing place with
  | leaf l =>
      rw [placed, List.mem_singleton]
      constructor
      · intro h
        cases h
        exact .here _
      · intro h
        cases place with
        | nil =>
            cases h
            rfl
        | cons i rest => nomatch h
  | group logic children ih =>
      rw [placed, List.mem_cons, mem_placedFrom_iff]
      constructor
      · rintro (h | ⟨j, child, rest, hchild, hrest, rfl⟩)
        · cases h
          exact .here _
        · rw [Nat.zero_add]
          exact .there hchild ((ih child (List.mem_of_getElem? hchild)).mp hrest)
      · intro h
        cases place with
        | nil =>
            cases h
            exact .inl rfl
        | cons i rest =>
            obtain ⟨child, hchild, hrest⟩ := h.exists_child
            exact .inr ⟨i, child, rest, hchild, (ih child (List.mem_of_getElem? hchild)).mpr hrest,
              by rw [Nat.zero_add]⟩

/-- Nodes of several children come in the order of their places if those of each child do. -/
theorem pairwise_placedFrom {cs : List Condition} (h : ∀ c ∈ cs, c.placed.Pairwise fun x y => x.1 < y.1) (i : Nat) :
    (placedFrom i cs).Pairwise fun x y => x.1 < y.1 := by
  induction cs generalizing i with
  | nil => exact List.Pairwise.nil
  | cons c cs ih =>
      obtain ⟨hc, hcs⟩ := List.forall_mem_cons.mp h
      rw [placedFrom, List.pairwise_append, List.pairwise_map]
      refine ⟨hc.imp fun hlt => List.cons_lt_cons_iff.mpr (.inr ⟨rfl, hlt⟩), ih hcs (i + 1), ?_⟩
      -- a place in the first child begins with an earlier position
      rintro x hx ⟨place, node⟩ hlater
      obtain ⟨⟨rest, node'⟩, -, rfl⟩ := List.mem_map.mp hx
      obtain ⟨j, child, rest', -, -, rfl⟩ := mem_placedFrom_iff.mp hlater
      exact List.cons_lt_cons_iff.mpr (.inl (by omega))

/-- **Nodes come in the order of their places**, a group before its children. -/
theorem pairwise_placed (c : Condition) : c.placed.Pairwise fun x y => x.1 < y.1 := by
  induction c with
  | leaf l =>
      rw [placed]
      exact List.pairwise_singleton _ _
  | group logic children ih =>
      rw [placed, List.pairwise_cons]
      refine ⟨?_, pairwise_placedFrom ih 0⟩
      rintro ⟨place, node⟩ hmem
      obtain ⟨j, child, rest, -, -, rfl⟩ := mem_placedFrom_iff.mp hmem
      exact List.nil_lt_cons _ _

/-- What the nodes of children contribute by their levels, they contribute child by child, a level further down. -/
theorem flatMap_placedFrom {β : Type} (f : Nat → Condition → List β) (i : Nat) (cs : List Condition) :
    (placedFrom i cs).flatMap (fun x => f x.1.length x.2) =
      cs.flatMap fun c => c.placed.flatMap fun x => f (x.1.length + 1) x.2 := by
  induction cs generalizing i with
  | nil => rfl
  | cons c cs ih =>
      rw [placedFrom, List.flatMap_append, List.flatMap_map, ih, List.flatMap_cons]
      rfl

/-! ## Defects of a node -/

/-- The condition is a group without children. -/
def isEmptyGroup : Condition → Bool
  | .group _ [] => true
  | _ => false

/-- The condition is a leaf of the kind that is missing the part. -/
def lacks (kind : LeafKind) (part : Part) : Condition → Bool
  | .leaf l => l.kind = kind ∧ l.lacks part
  | .group _ _ => false

theorem mem_required_of_lacks {kind : LeafKind} {part : Part} {node : Condition} (h : node.lacks kind part = true) :
    part ∈ kind.required := by
  cases node with
  | leaf l =>
      obtain ⟨rfl, hpart⟩ := of_decide_eq_true h
      exact Leaf.mem_required_of_lacks hpart
  | group logic children => cases h

/-- What is wrong with a node on whatever level. -/
def flaws : Condition → List Defect
  | .leaf l => (l.kind.required.filter l.lacks).map (.incomplete l.kind)
  | .group _ children => if children = [] then [.emptyGroup] else []

/-- What is wrong with a node on a level. -/
def found (limit : Int) (level : Nat) (node : Condition) : List Defect :=
  node.flaws ++ if node.isGroup ∧ limit < level then [.tooDeep limit] else []

/-- **The check goes from node to node** and finds of each what is wrong with it on its level. -/
theorem defects_eq_flatMap_found (limit : Int) (c : Condition) (level : Nat) :
    c.defects limit level = c.placed.flatMap fun x => x.2.found limit (level + x.1.length) := by
  induction c generalizing level with
  | leaf l =>
      rw [defects, placed, List.flatMap_singleton, Leaf.defects, Leaf.missing_eq_filter, found, isGroup]
      simp [flaws]
  | group logic children ih =>
      -- the level counted on the way down grows as the places do that begin at the group
      have hbelow : defectsAll limit (level + 1) children =
          (placedFrom 0 children).flatMap fun x => x.2.found limit (level + x.1.length) := by
        rw [defectsAll_eq_flatMap, flatMap_placedFrom (fun n node => node.found limit (level + n))]
        refine List.flatMap_congr ?_
        intro c hc
        rw [ih c hc (level + 1)]
        simp only [Nat.add_assoc, Nat.add_comm 1]
      rw [defects, placed, List.flatMap_cons, hbelow, List.length_nil, Nat.add_zero]
      congr 1
      cases children <;> simp [groupDefects, found, flaws, isGroup]

/-! ## Each defect once -/

variable {limit : Int} {level : Nat} {node : Condition}

theorem mem_flaws_iff {d : Defect} :
    d ∈ node.flaws ↔ (d = .emptyGroup ∧ node.isEmptyGroup = true) ∨
      ∃ kind part, d = .incomplete kind part ∧ node.lacks kind part = true := by
  cases node with
  | leaf l =>
      simp only [flaws, isEmptyGroup, lacks, List.mem_map, List.mem_filter]
      constructor
      · rintro ⟨part, ⟨-, hpart⟩, rfl⟩
        exact .inr ⟨l.kind, part, rfl, by simpa using hpart⟩
      · rintro (⟨-, h⟩ | ⟨kind, part, rfl, h⟩)
        · cases h
        · obtain ⟨rfl, hpart⟩ := of_decide_eq_true h
          exact ⟨part, ⟨Leaf.mem_required_of_lacks hpart, hpart⟩, rfl⟩
  | group logic children => cases children <;> simp [flaws, isEmptyGroup, lacks]

theorem mem_found_iff {d : Defect} :
    d ∈ node.found limit level ↔ d ∈ node.flaws ∨ d = .tooDeep limit ∧ node.isGroup = true ∧ limit < level := by
  unfold found
  by_cases hdeep : node.isGroup = true ∧ limit < level <;> simp [hdeep]

theorem mem_lasting_of_mem_flaws {d : Defect} (h : d ∈ node.flaws) : d ∈ Defect.lasting := by
  rcases mem_flaws_iff.mp h with ⟨rfl, -⟩ | ⟨kind, part, rfl, hlacks⟩
  · exact List.mem_cons_self
  · exact Defect.incomplete_mem_lasting (mem_required_of_lacks hlacks)

theorem possible_of_mem_found {d : Defect} (h : d ∈ node.found limit level) : d.Possible limit := by
  rcases mem_found_iff.mp h with hflaw | ⟨rfl, -⟩
  · exact .inr (mem_lasting_of_mem_flaws hflaw)
  · exact .inl rfl

theorem tooDeep_not_mem_flaws (limit : Int) (node : Condition) : Defect.tooDeep limit ∉ node.flaws := by
  intro h
  exact Defect.message_ne_of_mem_lasting (mem_lasting_of_mem_flaws h) limit rfl

theorem emptyGroup_mem_found_iff : Defect.emptyGroup ∈ node.found limit level ↔ node.isEmptyGroup = true := by
  simp [mem_found_iff, mem_flaws_iff]

theorem tooDeep_mem_found_iff :
    Defect.tooDeep limit ∈ node.found limit level ↔ node.isGroup = true ∧ limit < level := by
  simp [mem_found_iff, tooDeep_not_mem_flaws]

theorem incomplete_mem_found_iff {kind : LeafKind} {part : Part} :
    Defect.incomplete kind part ∈ node.found limit level ↔ node.lacks kind part = true := by
  simp [mem_found_iff, mem_flaws_iff]

theorem nodup_flaws (node : Condition) : node.flaws.Nodup := by
  cases node with
  | leaf l =>
      refine (l.kind.nodup_required.filter _).map ?_
      intro part part' h
      cases h
      rfl
  | group logic children => cases children <;> simp [flaws]

/-- **Nothing is found twice at a node.** -/
theorem nodup_found (limit : Int) (level : Nat) (node : Condition) : (node.found limit level).Nodup := by
  unfold found
  split
  · rw [← List.concat_eq_append]
    exact (nodup_flaws node).concat (tooDeep_not_mem_flaws limit node)
  · rw [List.append_nil]
    exact nodup_flaws node

theorem nodup_message_found (limit : Int) (level : Nat) (node : Condition) :
    ((node.found limit level).map Defect.message).Nodup :=
  (nodup_found limit level node).map_on fun _ hd _ he =>
    Defect.message_inj (possible_of_mem_found hd) (possible_of_mem_found he)

/-- What a node reports besides its depth has nothing to do with the limit or the level. -/
theorem filter_message_found (limit : Int) (level : Nat) (node : Condition) :
    ((node.found limit level).map Defect.message).filter (· ≠ (Defect.tooDeep limit).message) =
      node.flaws.map Defect.message := by
  have hflaws : (node.flaws.map Defect.message).filter (· ≠ (Defect.tooDeep limit).message) =
      node.flaws.map Defect.message := by
    rw [List.filter_eq_self]
    intro text htext
    obtain ⟨d, hd, rfl⟩ := List.mem_map.mp htext
    exact decide_eq_true (Defect.message_ne_of_mem_lasting (mem_lasting_of_mem_flaws hd) limit)
  rw [found, List.map_append, List.filter_append, hflaws]
  split <;> simp

end Condition

/-- What each of several items contributes at most once occurs as often as there are items that contribute it. -/
theorem count_flatMap_of_nodup {α β : Type} [DecidableEq β] {f : α → List β} (h : ∀ a, (f a).Nodup) (b : β)
    (as : List α) : (as.flatMap f).count b = as.countP fun a => b ∈ f a := by
  induction as with
  | nil => rfl
  | cons a as ih =>
      rw [List.flatMap_cons, List.count_append, ih, (h a).count, List.countP_cons, Nat.add_comm]
      simp

namespace Group

/-- What the check of a tree says. -/
def messages (g : Group) (limit : Int) : List String := (g.defects limit).map Defect.message

/-- The nodes of a tree with their places, a group before its children. -/
def placed (g : Group) : List (List Nat × Condition) := g.toCondition.placed

theorem messages_eq_flatMap (g : Group) (limit : Int) :
    g.messages limit = g.placed.flatMap fun x => (x.2.found limit (x.1.length + 1)).map Defect.message := by
  unfold messages defects placed
  rw [Condition.defects_eq_flatMap_found, List.map_flatMap]
  simp only [Nat.add_comm 1]

/-- **A message occurs once for each node that has the defect.** -/
theorem count_message {limit : Int} {d : Defect} (hd : d.Possible limit) (g : Group) :
    (g.messages limit).count d.message = g.placed.countP fun x => d ∈ x.2.found limit (x.1.length + 1) := by
  rw [messages_eq_flatMap,
    count_flatMap_of_nodup fun x : List Nat × Condition => Condition.nodup_message_found limit (x.1.length + 1) x.2]
  refine List.countP_congr ?_
  intro x _
  rw [decide_eq_true_iff, decide_eq_true_iff, List.mem_map]
  constructor
  · rintro ⟨e, he, heq⟩
    exact Defect.message_inj (Condition.possible_of_mem_found he) hd heq ▸ he
  · intro h
    exact ⟨d, h, rfl⟩

theorem count_tooDeep_message (g : Group) (limit : Int) :
    (g.messages limit).count (Defect.tooDeep limit).message =
      g.placed.countP fun x => x.2.isGroup ∧ limit < (x.1.length + 1 : Nat) := by
  rw [count_message (.inl rfl)]
  simp only [Condition.tooDeep_mem_found_iff]

theorem filter_messages (g : Group) (limit : Int) :
    (g.messages limit).filter (· ≠ (Defect.tooDeep limit).message) =
      g.placed.flatMap fun x => x.2.flaws.map Defect.message := by
  rw [messages_eq_flatMap, List.filter_flatMap]
  simp only [Condition.filter_message_found]

/-- **One message for each defect.** Whatever the tree and the limit, node by node in the order of their places the
check says what is wrong with the node, each defect in one message. So
* the text about groups without children occurs once for each of them;
* the text about depth occurs once for each group on a level beyond the limit;
* the text about a part of a kind of leaf occurs once for each leaf of the kind that is missing the part;
* the other messages than those about depth are the same with any limit;
* with the next limit there are as many messages about depth fewer as there are groups on the level that it
  allows. -/
theorem one_message_per_defect (g : Group) (limit : Int) :
    (g.messages limit = g.placed.flatMap fun x => (x.2.found limit (x.1.length + 1)).map Defect.message) ∧
    (∀ place node, (place, node) ∈ g.placed ↔ g.toCondition.Leads (Path.ofPositions place) node) ∧
    (g.placed.Pairwise fun x y => x.1 < y.1) ∧
    (g.messages limit).count Defect.emptyGroup.message = g.placed.countP (·.2.isEmptyGroup) ∧
    (g.messages limit).count (Defect.tooDeep limit).message =
      g.placed.countP (fun x => x.2.isGroup ∧ limit < (x.1.length + 1 : Nat)) ∧
    (∀ kind, ∀ part ∈ kind.required,
      (g.messages limit).count (part.message kind) = g.placed.countP (·.2.lacks kind part)) ∧
    (∀ other, (g.messages limit).filter (· ≠ (Defect.tooDeep limit).message) =
      (g.messages other).filter (· ≠ (Defect.tooDeep other).message)) ∧
    (g.messages limit).count (Defect.tooDeep limit).message =
      (g.messages (limit + 1)).count (Defect.tooDeep (limit + 1)).message +
        g.placed.countP (fun x => x.2.isGroup ∧ (x.1.length + 1 : Nat) = limit + 1) := by
  refine ⟨messages_eq_flatMap g limit, fun _ _ => Condition.mem_placed_iff, Condition.pairwise_placed _, ?empty,
    count_tooDeep_message g limit, ?parts, ?others, ?raised⟩
  case empty =>
    rw [count_message (.inr List.mem_cons_self)]
    simp only [Condition.emptyGroup_mem_found_iff, Bool.decide_eq_true]
  case parts =>
    intro kind part hpart
    have hpossible : (Defect.incomplete kind part).Possible limit := .inr (Defect.incomplete_mem_lasting hpart)
    refine (count_message hpossible g).trans ?_
    simp only [Condition.incomplete_mem_found_iff, Bool.decide_eq_true]
  case others =>
    intro other
    rw [filter_messages, filter_messages]
  case raised =>
    -- the groups beyond the limit are those beyond the next one and those on the level in between
    rw [count_tooDeep_message, count_tooDeep_message,
      List.countP_eq_countP_filter_add _ _ fun x => limit + 1 < (x.1.length + 1 : Nat),
      List.countP_filter, List.countP_filter]
    congr 1
    · refine List.countP_congr ?_
      intro x _
      simp only [Bool.and_eq_true, decide_eq_true_iff]
      grind
    · refine List.countP_congr ?_
      intro x _
      simp only [Bool.and_eq_true, decide_eq_true_iff, Bool.not_eq_true', decide_eq_false_iff_not]
      grind

/-- A tree with a group on its third level that has no children. -/
def hollow : Group where
  children := [.leaf (.position {}), .group .or [.group .and [], .leaf (.cross { field := "value" })]]

/-- With a limit of two that group is reported for both, and with a limit of three for its children alone. -/
theorem one_message_per_defect_hollow :
    hollow.messages 2 = ["Position: field required", "Empty condition group found",
      "Max nesting depth (2) exceeded", "Cross: source indicator required", "Cross: target indicator required",
      "Cross: target field required"] ∧
    (hollow.messages 2).count "Cross: target field required" = 1 ∧
    (hollow.messages 2).count "Max nesting depth (2) exceeded" =
      (hollow.messages 3).count "Max nesting depth (3) exceeded" + 1 := by
  obtain ⟨horder, -, -, -, -, hparts, -, hraised⟩ := one_message_per_defect hollow 2
  refine ⟨horder.trans ?_, (hparts .cross .targetField (by decide)).trans ?_, hraised.trans ?_⟩
  · decide +kernel
  · decide +kernel
  · decide +kernel

end Group

end TradingRules
