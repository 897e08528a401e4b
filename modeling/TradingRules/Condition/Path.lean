import TradingRules.Condition.Basic
import TradingRules.Json.Message

/-!
# `Condition.Path` — addressing the nodes of a tree

A path leads from the root to a node by the positions of children, counted from zero; the empty path is the
root. Paths come from outside, so a segment may be any value: only an integer within the group's bounds
addresses a child.

## Contents
* `Path`, `PathError` — paths and how they fail;
* `locate` — the child a segment addresses;
* `Condition.at?` — the node a path addresses.
-/

namespace TradingRules

/-- A path: one segment per level. -/
abbrev Path := List Json

/-- What is wrong with a path. -/
inductive PathFault where
  | notAnInteger (segment : Json)
  | outOfRange (index : Int) (size : Nat)
  /-- The path goes on below a leaf. -/
  | belowLeaf (kind : LeafKind)
deriving DecidableEq

/-- A fault, the position in the path at which it was met, and the path. -/
structure PathError where
  fault : PathFault
  position : Nat
  path : Path
deriving DecidableEq

/-- The error in words. -/
def PathError.message (e : PathError) : String :=
  let position := toString e.position
  match e.fault with
  | .notAnInteger segment =>
    "Path segment " ++ segment.quote ++ " at position " ++ position ++ " is not an integer"
  | .outOfRange index size =>
    "Path index " ++ toString index ++ " at position " ++ position ++ " is out of range (group has "
      ++ toString size ++ " conditions)"
  | .belowLeaf kind => "Path descends into a " ++ kind.name ++ " leaf at position " ++ position

/-- The path to the children at the given positions. -/
def Path.ofPositions (positions : List Nat) : Path := positions.map fun i : Nat => .int i

/-- The child of a group of `size` children that a segment addresses. -/
def locate (size : Nat) (segment : Json) : Except PathFault (Fin size) :=
  match segment with
  | .int (.ofNat i) => if h : i < size then .ok ⟨i, h⟩ else .error (.outOfRange i size)
  | .int (.negSucc i) => .error (.outOfRange (.negSucc i) size)
  | segment => .error (.notAnInteger segment)

/-- A segment that is a position within bounds addresses the child there. -/
theorem locate_ofNat {size i : Nat} (h : i < size) : locate size (.int (i : Int)) = .ok ⟨i, h⟩ := by
  simp [locate, h]

/-- A segment addresses a child exactly if it is the child's position. -/
theorem locate_eq_ok_iff {size : Nat} {segment : Json} {i : Fin size} :
    locate size segment = .ok i ↔ segment = .int (i.val : Int) := by
  constructor
  · intro h
    unfold locate at h
    split at h
    · split at h
      · cases h; rfl
      · cases h
    · cases h
    · cases h
  · rintro rfl
    exact locate_ofNat i.isLt

/-- The node that a path addresses, and the failing position otherwise. A path that goes on below a leaf
fails at the first segment below it. `position` counts the segments above this node. -/
def Condition.at? (position : Nat) : Condition → Path → Except (PathFault × Nat) Condition
  | node, [] => .ok node
  | .leaf l, _ :: _ => .error (.belowLeaf l.kind, position)
  | .group _ children, segment :: rest =>
    match locate children.length segment with
    | .error fault => .error (fault, position)
    | .ok i => children[i].at? (position + 1) rest

/-- The node of a tree that a path addresses. -/
def Group.get (g : Group) (path : Path) : Except PathError Condition :=
  (g.toCondition.at? 0 path).mapError fun (fault, position) => ⟨fault, position, path⟩

end TradingRules
