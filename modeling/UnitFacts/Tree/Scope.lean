import UnitFacts.Tree.Basic

/-!
Qualified names. The scope chain of a node is the node itself and its semantic parents up to the
unit; the qualified name joins the spellings along it, outermost first, and leaves empty ones out.
-/

namespace UnitFacts.Tree

/-- What stands for a name when a whole scope chain has none. -/
def unnamed : String := "(unnamed)"

def isUnit (t : Tree) (id : NodeId) : Bool := t.kindIn (fun kind => decide (kind = .unit)) id

/-- A node and its semantic parents, innermost first. No chain without a cycle is longer than the
node table. -/
def scopeChain (t : Tree) (id : NodeId) : List NodeId := t.ancestry t.size (some id)

/-- The part of the scope chain below the unit. -/
def innerScopes (t : Tree) (id : NodeId) : List NodeId := (t.scopeChain id).takeWhile fun s => !t.isUnit s

/-- The spellings that make up the qualified name, innermost first. -/
def nameSegments (t : Tree) (id : NodeId) : List String :=
  ((t.innerScopes id).map t.spelling).filter fun s => decide (s ≠ "")

def qualifiedName (t : Tree) (id : NodeId) : String :=
  match t.nameSegments id with
  | [] => unnamed
  | segments => "::".intercalate segments.reverse

end UnitFacts.Tree
