import UnitFacts.Kind

/-!
The syntax tree of a unit: a table of nodes addressed by index, a table of source files, and what
the compiler said about inclusions and diagnostics. Lines, columns and depths are 32-bit words.

Links are plain indices. A look-up outside the table answers nothing, and `Tree.check` says when no
such look-up can happen.
-/

namespace UnitFacts

abbrev NodeId := Nat

abbrev FileId := Nat

inductive Severity where
  | ignored
  | note
  | warning
  | error
  | fatal
  deriving DecidableEq, Repr, Ord

namespace Severity

def name : Severity → String
  | .ignored => "ignored"
  | .note => "note"
  | .warning => "warning"
  | .error => "error"
  | .fatal => "fatal"

def all : List Severity := [.ignored, .note, .warning, .error, .fatal]

def ofName? (name : String) : Option Severity := all.find? fun severity => severity.name = name

/-- Errors, fatal ones included. -/
def isError : Severity → Bool
  | .error | .fatal => true
  | _ => false

end Severity

/-- A message of the compiler; `message` is the whole line it printed. -/
structure Diagnostic where
  severity : Severity
  message : String
  deriving DecidableEq, Repr

/-- A header that was opened, with its depth in the stack of inclusions. -/
structure Inclusion where
  path : String
  depth : UInt32
  deriving DecidableEq, Repr

structure SourceFile where
  path : String
  isMain : Bool := false
  isSystem : Bool := false
  deriving DecidableEq, Repr

structure Position where
  file : FileId
  line : UInt32
  col : UInt32
  deriving DecidableEq, Repr

structure Node where
  kind : NodeKind
  spelling : String := ""
  position : Option Position := none
  endLine : UInt32 := 0
  lexicalParent : Option NodeId := none
  semanticParent : Option NodeId := none
  children : List NodeId := []
  referenced : Option NodeId := none
  canonical : Option NodeId := none
  definition : Option NodeId := none
  isDefinition : Bool := false
  tokens : List String := []
  deriving DecidableEq, Repr

structure Tree where
  files : List SourceFile
  root : NodeId
  nodes : Array Node
  inclusions : List Inclusion := []
  diagnostics : List Diagnostic := []
  deriving DecidableEq, Repr

/-- A position together with what the file table says about its file. -/
structure Location where
  path : String
  line : UInt32
  col : UInt32
  inMainFile : Bool
  inSystemHeader : Bool
  deriving DecidableEq, Repr

namespace Tree

def size (t : Tree) : Nat := t.nodes.size

def node? (t : Tree) (id : NodeId) : Option Node := t.nodes[id]?

def kind? (t : Tree) (id : NodeId) : Option NodeKind := (t.node? id).map (·.kind)

/-- Whether the node exists and its kind is in the group. -/
def kindIn (t : Tree) (group : NodeKind → Bool) (id : NodeId) : Bool := (t.kind? id).any group

def spelling (t : Tree) (id : NodeId) : String := ((t.node? id).map (·.spelling)).getD ""

def children (t : Tree) (id : NodeId) : List NodeId := ((t.node? id).map (·.children)).getD []

def tokens (t : Tree) (id : NodeId) : List String := ((t.node? id).map (·.tokens)).getD []

def endLine (t : Tree) (id : NodeId) : UInt32 := ((t.node? id).map (·.endLine)).getD 0

def lexicalParent? (t : Tree) (id : NodeId) : Option NodeId := (t.node? id).bind (·.lexicalParent)

def semanticParent? (t : Tree) (id : NodeId) : Option NodeId := (t.node? id).bind (·.semanticParent)

def referenced? (t : Tree) (id : NodeId) : Option NodeId := (t.node? id).bind (·.referenced)

def canonical? (t : Tree) (id : NodeId) : Option NodeId := (t.node? id).bind (·.canonical)

def definition? (t : Tree) (id : NodeId) : Option NodeId := (t.node? id).bind (·.definition)

def isDefinition (t : Tree) (id : NodeId) : Bool := (t.node? id).any (·.isDefinition)

def location? (t : Tree) (id : NodeId) : Option Location := do
  let position ← (← t.node? id).position
  let file ← t.files[position.file]?
  return ⟨file.path, position.line, position.col, file.isMain, file.isSystem⟩

def inSystemHeader (t : Tree) (id : NodeId) : Bool := (t.location? id).any (·.inSystemHeader)

def mainFile? (t : Tree) : Option SourceFile := t.files.find? (·.isMain)

/-- A node followed by its semantic parents, innermost first, at most `fuel` of them. -/
def ancestry (t : Tree) : Nat → Option NodeId → List NodeId
  | 0, _ => []
  | _ + 1, none => []
  | fuel + 1, some id => id :: ancestry t fuel (t.semanticParent? id)

end Tree

end UnitFacts
