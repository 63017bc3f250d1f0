import UnitFacts.Access
import UnitFacts.Facts.Order
import UnitFacts.Path

/-!
The facts of a tree. One walk visits the nodes outside system headers; symbols, references and call
edges are what single visits contribute, in pre-order, and each list is then put in order on its
own.
-/

namespace UnitFacts

structure ExtractOptions where
  action : Action := .everything
  includeWarnings : Bool := false
  deriving DecidableEq, Repr

def ExtractOptions.keeps (options : ExtractOptions) (severity : Severity) : Bool :=
  severity.isError || (options.includeWarnings && severity = .warning)

namespace Tree

/-- How many semantic parents of a call are asked for a caller. -/
def callerReach : Nat := 50

/-- The innermost ancestor that owns a body, else the first semantic parent below the unit that
does. -/
def caller? (t : Tree) (v : Visit) : Option NodeId :=
  (v.path.find? fun id => t.kindIn NodeKind.ownsBody id).or
    (((t.ancestry callerReach (t.semanticParent? v.node)).takeWhile fun id => !t.isUnit id).find?
      fun id => t.kindIn NodeKind.ownsBody id)

/-- Whether the visited node lies in the callee child of the innermost call around it. -/
def isUnderCallee (t : Tree) (v : Visit) : Bool :=
  match v.steps.find? fun (ancestor, _) => decide (t.kind? ancestor = some .callExpr) with
  | some (call, child) => t.calleeChild? call = some child
  | none => false

/-- The target of a visited call that is reported, with the place of the call. -/
def reportedCall? (t : Tree) (id : NodeId) : Option (NodeId × UInt32 × UInt32) :=
  match t.callTarget? id, t.lineCol? id with
  | some target, some (line, col) => if t.inSystemHeader target then none else some (target, line, col)
  | _, _ => none

/-- The target, usage and place of a visited use that is reported. -/
def reportedUse? (t : Tree) (v : Visit) : Option (NodeId × Usage × UInt32 × UInt32) :=
  match t.kind? v.node with
  | none => none
  | some .callExpr => (t.reportedCall? v.node).map fun (target, line, col) => (target, .call, line, col)
  | some kind =>
    let use :=
      if kind = .typeRef then (t.referenced? v.node).map fun target => (target, Usage.typeRef)
      else if kind.isNameUse && !t.isUnderCallee v then
        (t.useTarget? v.node).map fun target => (target, t.access v)
      else none
    match use, t.lineCol? v.node with
    | some (target, usage), some (line, col) =>
      if t.isReportedTarget target then some (target, usage, line, col) else none
    | _, _ => none

def referenceFact? (t : Tree) (v : Visit) : Option ReferenceFact :=
  (t.reportedUse? v).map fun (target, usage, line, col) => ⟨t.qualifiedName target, line, col, usage⟩

def callEdge? (t : Tree) (v : Visit) : Option CallEdge :=
  if t.kind? v.node = some .callExpr then
    match t.reportedCall? v.node, t.caller? v with
    | some (target, line, _), some caller => some ⟨t.qualifiedName caller, t.qualifiedName target, line⟩
    | _, _ => none
  else none

/-- The symbols of the walk; of those with one key the first is kept. -/
def symbolFacts (t : Tree) : List SymbolFact :=
  firstByKey SymbolFact.key [] (t.ownVisits.filterMap fun v => t.symbolFact? v.node)

/-- The references of the walk, in pre-order and with repetitions. -/
def referenceFacts (t : Tree) : List ReferenceFact := t.ownVisits.filterMap t.referenceFact?

/-- The call edges of the walk, in pre-order and with repetitions. -/
def callEdges (t : Tree) : List CallEdge := t.ownVisits.filterMap t.callEdge?

/-- The inclusions of the compiler as dependencies: slashes forward, depth at least one. -/
def includeDeps (t : Tree) : List IncludeDep :=
  (t.inclusions.map fun inclusion => ⟨Path.normalise inclusion.path, max inclusion.depth 1⟩).filter
    fun dep => decide (dep.path ≠ "")

def extract (t : Tree) (file : String) (options : ExtractOptions) : Extraction where
  file := Path.normalise file
  symbols := if options.action.collectsSymbols then t.symbolFacts else []
  references := if options.action.collectsUses then ReferenceFact.tidy t.referenceFacts else []
  callEdges := if options.action.collectsUses then CallEdge.tidy t.callEdges else []
  includeDeps := IncludeDep.tidy t.includeDeps
  success := true
  diagnostics := (t.diagnostics.filter fun d => options.keeps d.severity).map (·.message)

end Tree

end UnitFacts
