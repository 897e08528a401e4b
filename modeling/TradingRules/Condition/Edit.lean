import TradingRules.Condition.Decode
import TradingRules.Condition.Path

/-!
# `Condition.Edit` — changing a tree at a path

An edit applies a function to the node that a path addresses and gives a new root; every other node stays as
it is. What the function gives back may be a node, a document that still has to be read, or nothing, which
removes the node.

A path that goes on below a leaf addresses nothing. A strict edit fails there; any other edit leaves the tree
as it is. Failing or not, an edit looks at the segments from the root down and no further than it has to.

## Contents
* `Draft`, `EditError` — what an edit puts in, and how it fails;
* `Group.update` — the general edit;
* `Group.add`, `Group.remove`, `Group.replace`, `Group.setLogic` — the edits of the editor;
* `Condition.wrap`, `Condition.duplicate`, `Condition.unwrap` — functions to update with.
-/

namespace TradingRules

/-- A node to put into a tree: one at hand, or a document that has to be read first. -/
inductive Draft where
  | node (c : Condition)
  | document (value : Json)

/-- How an edit fails. -/
inductive EditError where
  | path (error : PathError)
  /-- What was put in is no condition. -/
  | invalid (issues : List Issue)
  /-- The value is no combinator. -/
  | unknownLogic (value : Json)
deriving DecidableEq

/-- A function to update with. -/
abbrev Updater := Condition → Except EditError (Option Draft)

/-- A checked part of an edited tree. -/
def Checked.toEdit {α : Type} : Checked α → Except EditError α
  | .ok value => .ok value
  | .bad issues => .error (.invalid issues)

namespace Draft

/-- The draft as the `i`-th child of a group. -/
def child (i : Nat) : Draft → Except EditError Condition
  | .node c => .ok c
  | .document value => (((Condition.ofJson value).under (.index i)).under (.key "conditions")).toEdit

/-- The draft as the root of a tree. -/
def root : Draft → Except EditError Group
  | .node (.group logic children) => .ok ⟨logic, children⟩
  | .node (.leaf _) => .error (.invalid [⟨.notAnObject, []⟩])
  | .document value => (Group.ofJson value).toEdit

end Draft

/-- Puts a draft in place of the `i`-th child, or removes that child. -/
def putChild (children : List Condition) (i : Nat) : Option Draft → Except EditError (List Condition)
  | none => .ok (children.eraseIdx i)
  | some draft => (draft.child i).map (children.set i)

/-- The children of a group after an edit below it. `segment` addresses one of them, `rest` leads on from
there, and `position` counts the segments above. -/
def updateChildren (f : Updater) (strict : Bool) (path : Path) (position : Nat) (children : List Condition)
    (segment : Json) (rest : Path) : Except EditError (List Condition) :=
  match locate children.length segment with
  | .error fault => .error (.path ⟨fault, position, path⟩)
  | .ok i =>
    match rest with
    | [] => do putChild children i (← f children[i])
    | segment :: rest =>
      match children[i] with
      | .group logic below =>
        (updateChildren f strict path (position + 1) below segment rest).map fun below =>
          children.set i (.group logic below)
      | .leaf l =>
        if strict then .error (.path ⟨.belowLeaf l.kind, position, path⟩) else .ok children

namespace Group

/-- Applies a function to the node that a path addresses. A root that is removed leaves the empty AND group
behind; a root that is replaced has to be a group again. -/
def update (root : Group) (path : Path) (f : Updater) (strict : Bool := false) : Except EditError Group :=
  match path with
  | [] => do
    match ← f root.toCondition with
    | none => return {}
    | some draft => draft.root
  | segment :: rest =>
    (updateChildren f strict path 0 root.children segment rest).map fun children => ⟨root.logic, children⟩

/-- Appends a draft to a group's children; a leaf stays as it is. -/
def appendTo (draft : Draft) : Updater
  | .leaf l => .ok (some (.node (.leaf l)))
  | .group logic children => do
    let c ← draft.child children.length
    return some (.node (.group logic (children ++ [c])))

/-- Appends a child to the group that a path addresses. -/
def add (root : Group) (path : Path) (draft : Draft) (strict : Bool := false) : Except EditError Group :=
  root.update path (appendTo draft) strict

/-- Removes the node that a path addresses. -/
def remove (root : Group) (path : Path) (strict : Bool := false) : Except EditError Group :=
  root.update path (fun _ => .ok none) strict

/-- Replaces the node that a path addresses; nothing in its place removes it. -/
def replace (root : Group) (path : Path) (draft : Option Draft) (strict : Bool := false) :
    Except EditError Group :=
  root.update path (fun _ => .ok draft) strict

/-- The combinator that a value names. -/
def readLogic (value : Json) : Except EditError Logic :=
  match value with
  | .str name => match Logic.ofName? name with
    | some logic => .ok logic
    | none => .error (.unknownLogic value)
  | _ => .error (.unknownLogic value)

/-- Sets a group's combinator; a leaf stays as it is, whatever the value. -/
def relabel (value : Json) : Updater
  | .leaf l => .ok (some (.node (.leaf l)))
  | .group _ children => do
    let logic ← readLogic value
    return some (.node (.group logic children))

/-- Sets the combinator of the group that a path addresses. -/
def setLogic (root : Group) (path : Path) (value : Json) (strict : Bool := false) : Except EditError Group :=
  root.update path (relabel value) strict

end Group

/-! ## Functions to update with -/

namespace Condition

/-- A new group around the given children, whose combinator is still a document. -/
def regroup (logic : Json) (children : List Condition) : Except EditError (Option Draft) := do
  let logic ← ((readName Logic.ofName? logic).under (.key "logic")).toEdit
  return some (.node (.group logic children))

/-- Puts a node into a group of its own. -/
def wrap (logic : Json) : Updater := fun c => regroup logic [c]

/-- Puts a node into a group twice. -/
def duplicate (logic : Json) : Updater := fun c => regroup logic [c, c]

/-- Replaces a group by its first child; a leaf or an empty group is removed. -/
def unwrap : Updater
  | .group _ (c :: _) => .ok (some (.node c))
  | _ => .ok none

/-- Leaves a node as it is. -/
def keep : Updater := fun c => .ok (some (.node c))

end Condition

/-- An edit's error in words. -/
def EditError.message : EditError → String
  | .path error => error.message
  | .invalid _ => ""
  | .unknownLogic value => value.quote ++ " is not a valid GroupLogic"

end TradingRules
