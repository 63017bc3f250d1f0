import UnitFacts.Tree.Basic

/-!
Well-formedness of a tree. `Tree.check` walks the node table once: every link, file and child is in
range and no node is a child twice; then it follows every chain of semantic parents, which must
leave the table's size in steps unused. The first fault found is the one reported.
-/

namespace UnitFacts

inductive Fault where
  | rootMissing (root : NodeId)
  | linkMissing (node target : NodeId)
  | fileMissing (node : NodeId) (file : FileId)
  | childMissing (node child : NodeId)
  | childRepeated (child : NodeId)
  | scopeCycle (node : NodeId)
  deriving DecidableEq, Repr

def Fault.message : Fault → String
  | .rootMissing root => "root " ++ toString root ++ " is outside the node table"
  | .linkMissing node target =>
    "node " ++ toString node ++ " links to missing node " ++ toString target
  | .fileMissing node file => "node " ++ toString node ++ " refers to missing file " ++ toString file
  | .childMissing node child => "node " ++ toString node ++ " has missing child " ++ toString child
  | .childRepeated child => "node " ++ toString child ++ " appears twice in the tree"
  | .scopeCycle node => "semantic parents of node " ++ toString node ++ " form a cycle"

/-- The links of a node, in the order in which they are checked. -/
def Node.links (n : Node) : List NodeId :=
  [n.lexicalParent, n.semanticParent, n.referenced, n.canonical, n.definition].filterMap id

namespace Tree

def checkLinks (t : Tree) (id : NodeId) (n : Node) : Except Fault Unit :=
  match n.links.find? fun target => !decide (target < t.size) with
  | some target => .error (.linkMissing id target)
  | none => .ok ()

def checkFile (t : Tree) (id : NodeId) (n : Node) : Except Fault Unit :=
  match n.position with
  | some position =>
    if position.file < t.files.length then .ok () else .error (.fileMissing id position.file)
  | none => .ok ()

/-- Checks the children of a node against the marks of the children met so far, and marks them. -/
def checkChildren (t : Tree) (id : NodeId) : List NodeId → Array Bool → Except Fault (Array Bool)
  | [], marks => .ok marks
  | child :: rest, marks =>
    if t.size ≤ child then .error (.childMissing id child)
    else if child = t.root ∨ marks[child]? = some true then .error (.childRepeated child)
    else checkChildren t id rest (marks.setIfInBounds child true)

def checkNodes (t : Tree) : NodeId → List Node → Array Bool → Except Fault Unit
  | _, [], _ => .ok ()
  | id, n :: rest, marks => do
    checkLinks t id n
    checkFile t id n
    let marks ← checkChildren t id n.children marks
    checkNodes t (id + 1) rest marks

def checkScopes (t : Tree) : NodeId → List Node → Except Fault Unit
  | _, [] => .ok ()
  | id, n :: rest =>
    if t.size < (t.ancestry (t.size + 1) n.semanticParent).length then .error (.scopeCycle id)
    else checkScopes t (id + 1) rest

def check (t : Tree) : Except Fault Unit := do
  if t.size ≤ t.root then throw (.rootMissing t.root)
  checkNodes t 0 t.nodes.toList (Array.replicate t.size false)
  checkScopes t 0 t.nodes.toList

end Tree

end UnitFacts
