import UnitFacts.Facts.Basic
import UnitFacts.Tree.Scope

/-!
Which nodes are symbols worth reporting. Forward declarations of aggregates, local variables and
unnamed namespaces are passed over, though what lies below them is not.
-/

namespace UnitFacts

inductive SkipReason where
  | forwardDeclaration
  | localVariable
  | anonymousNamespace
  deriving DecidableEq, Repr

inductive SymbolVerdict where
  | notSymbol
  | skip (reason : SkipReason)
  | report (kind : SymbolKind)
  deriving DecidableEq, Repr

namespace Tree

/-- Whether the semantic parent of a node owns a body. -/
def isLocal (t : Tree) (id : NodeId) : Bool :=
  (t.semanticParent? id).any fun parent => t.kindIn NodeKind.ownsBody parent

def symbolVerdict (t : Tree) (id : NodeId) : SymbolVerdict :=
  match t.kind? id with
  | none => .notSymbol
  | some kind =>
    if !kind.bearsSymbol then .notSymbol
    else if kind.isAggregate && !t.isDefinition id then .skip .forwardDeclaration
    else if kind = .varDecl && t.isLocal id then .skip .localVariable
    else if kind = .namespaceDecl && t.spelling id = "" then .skip .anonymousNamespace
    else .report kind.symbolKind

/-- Line and column of a node; a position in line 0 counts as none. -/
def lineCol? (t : Tree) (id : NodeId) : Option (UInt32 × UInt32) :=
  match t.location? id with
  | some location => if 0 < location.line then some (location.line, location.col) else none
  | none => none

/-- The fact about a node that is reported and has a place. -/
def symbolFact? (t : Tree) (id : NodeId) : Option SymbolFact :=
  match t.symbolVerdict id, t.lineCol? id with
  | .report kind, some (line, col) =>
    some ⟨t.spelling id, t.qualifiedName id, kind, line, col, t.endLine id⟩
  | _, _ => none

end Tree

/-- What makes two symbol facts the same. -/
def SymbolFact.key (fact : SymbolFact) : String × SymbolKind × UInt32 :=
  (fact.qualifiedName, fact.kind, fact.line)

end UnitFacts
