import UnitFacts.Tree.Basic

/-!
The walk of a tree in pre-order. A visit is a node together with its path to the root; every
question about the surroundings of a node is a question about its visit.
-/

namespace UnitFacts

/-- A node met on a walk, with its ancestors, innermost first. -/
structure Visit where
  node : NodeId
  path : List NodeId
  deriving DecidableEq, Repr

namespace Visit

/-- Each ancestor with its child on the way to the node, innermost first. -/
def steps (v : Visit) : List (NodeId × NodeId) := v.path.zip (v.node :: v.path)

end Visit

namespace Tree

/-- The visits at and below a node, to a depth of `fuel`; a node that is not kept hides its
subtree. -/
def visitsBelow (t : Tree) (keep : NodeId → Bool) : Nat → List NodeId → NodeId → List Visit
  | 0, _, _ => []
  | fuel + 1, path, id =>
    if keep id then
      ⟨id, path⟩ :: (t.children id).flatMap fun child => visitsBelow t keep fuel (id :: path) child
    else []

/-- All visits from the root. No root path of a well-formed tree is longer than the node table. -/
def visits (t : Tree) (keep : NodeId → Bool) : List Visit := t.visitsBelow keep t.size [] t.root

/-- The walk that facts come from: system headers are passed over with all they contain. -/
def ownVisits (t : Tree) : List Visit := t.visits fun id => !t.inSystemHeader id

/-- The walk over every node. -/
def allVisits (t : Tree) : List Visit := t.visits fun _ => true

end Tree

end UnitFacts
