import UnitFacts.Tree.Basic

/-!
Growing a tree. A tree starts with its unit node and its main file; nodes are only ever added at the
end of the table, either attached below a parent, where a walk finds them, or loose, where only
links lead. An attached node takes its parent as semantic parent if the parent is a scope, and the
parent's own semantic parent otherwise.
-/

namespace UnitFacts

namespace Tree

def start (mainFile : String) : Tree where
  files := [⟨mainFile, true, false⟩]
  root := 0
  nodes := #[{ kind := .unit, spelling := mainFile }]

/-- The index that the next added node gets. -/
def nextId (t : Tree) : NodeId := t.nodes.size

def modify (t : Tree) (id : NodeId) (change : Node → Node) : Tree :=
  { t with nodes := t.nodes.modify id change }

/-- Adds a node at the end of the table and tells its index. -/
def push (t : Tree) (n : Node) : NodeId × Tree :=
  let nodes := t.nodes.push n
  (nodes.size - 1, { t with nodes })

/-- The semantic parent that nodes attached below `parent` get. -/
def scopeFor? (t : Tree) (parent : NodeId) : Option NodeId :=
  if t.kindIn NodeKind.isScope parent then some parent else t.semanticParent? parent

def attach (t : Tree) (parent : NodeId) (kind : NodeKind) (spelling : String) : NodeId × Tree :=
  let (id, t) := t.push { kind, spelling, lexicalParent := some parent, semanticParent := t.scopeFor? parent }
  (id, t.modify parent fun n => { n with children := n.children ++ [id] })

def addLoose (t : Tree) (scope : Option NodeId) (kind : NodeKind) (spelling : String) : NodeId × Tree :=
  t.push { kind, spelling, semanticParent := scope }

def fileId? (t : Tree) (path : String) : Option FileId :=
  t.files.findIdx? fun file => file.path = path

/-- Enters a path into the file table unless it is there already. -/
def addFile (t : Tree) (path : String) (isSystem : Bool) : Tree :=
  match t.fileId? path with
  | some _ => t
  | none => { t with files := t.files ++ [⟨path, false, isSystem⟩] }

def place (t : Tree) (id : NodeId) (file : FileId) (line col : UInt32) : Tree :=
  t.modify id fun n => { n with position := some ⟨file, line, col⟩ }

def setEndLine (t : Tree) (id : NodeId) (line : UInt32) : Tree :=
  t.modify id fun n => { n with endLine := line }

def setSemanticParent (t : Tree) (id : NodeId) (scope : Option NodeId) : Tree :=
  t.modify id fun n => { n with semanticParent := scope }

def setReferenced (t : Tree) (id target : NodeId) : Tree :=
  t.modify id fun n => { n with referenced := some target }

def setCanonical (t : Tree) (id target : NodeId) : Tree :=
  t.modify id fun n => { n with canonical := some target }

def setDefinition (t : Tree) (id target : NodeId) : Tree :=
  t.modify id fun n => { n with definition := some target }

def markDefinition (t : Tree) (id : NodeId) : Tree :=
  t.modify id fun n => { n with isDefinition := true }

def setTokens (t : Tree) (id : NodeId) (tokens : List String) : Tree :=
  t.modify id fun n => { n with tokens := tokens }

def addInclusion (t : Tree) (inclusion : Inclusion) : Tree :=
  { t with inclusions := t.inclusions ++ [inclusion] }

def addDiagnostic (t : Tree) (diagnostic : Diagnostic) : Tree :=
  { t with diagnostics := t.diagnostics ++ [diagnostic] }

end Tree

/-- One change to a growing tree. -/
inductive Edit where
  | attach (parent : NodeId) (kind : NodeKind) (spelling : String)
  | addLoose (scope : Option NodeId) (kind : NodeKind) (spelling : String)
  | addFile (path : String) (isSystem : Bool)
  | place (node : NodeId) (file : FileId) (line col : UInt32)
  | setEndLine (node : NodeId) (line : UInt32)
  | setSemanticParent (node : NodeId) (scope : Option NodeId)
  | setReferenced (node target : NodeId)
  | setCanonical (node target : NodeId)
  | setDefinition (node target : NodeId)
  | markDefinition (node : NodeId)
  | setTokens (node : NodeId) (tokens : List String)
  | addInclusion (inclusion : Inclusion)
  | addDiagnostic (diagnostic : Diagnostic)
  deriving DecidableEq, Repr

namespace Edit

/-- The node that a change is made to or below, which has to exist. -/
def subject? : Edit → Option NodeId
  | .attach parent _ _ => some parent
  | .place node _ _ _ | .setEndLine node _ | .setSemanticParent node _ | .setReferenced node _
  | .setCanonical node _ | .setDefinition node _ | .markDefinition node | .setTokens node _ => some node
  | .addLoose .. | .addFile .. | .addInclusion _ | .addDiagnostic _ => none

def isAllowed (t : Tree) (edit : Edit) : Bool := edit.subject?.all fun id => decide (id < t.size)

/-- The tree after a change; link targets and file indices are taken as they are. -/
def apply (t : Tree) : Edit → Tree
  | .attach parent kind spelling => (t.attach parent kind spelling).2
  | .addLoose scope kind spelling => (t.addLoose scope kind spelling).2
  | .addFile path isSystem => t.addFile path isSystem
  | .place node file line col => t.place node file line col
  | .setEndLine node line => t.setEndLine node line
  | .setSemanticParent node scope => t.setSemanticParent node scope
  | .setReferenced node target => t.setReferenced node target
  | .setCanonical node target => t.setCanonical node target
  | .setDefinition node target => t.setDefinition node target
  | .markDefinition node => t.markDefinition node
  | .setTokens node tokens => t.setTokens node tokens
  | .addInclusion inclusion => t.addInclusion inclusion
  | .addDiagnostic diagnostic => t.addDiagnostic diagnostic

/-- The index of the node that a change adds. -/
def added? (t : Tree) : Edit → Option NodeId
  | .attach parent kind spelling => some (t.attach parent kind spelling).1
  | .addLoose scope kind spelling => some (t.addLoose scope kind spelling).1
  | _ => none

/-- A change whose subject does not exist is refused. -/
def tryApply (t : Tree) (edit : Edit) : Option Tree :=
  if edit.isAllowed t then some (edit.apply t) else none

end Edit

end UnitFacts
