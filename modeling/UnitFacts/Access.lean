import UnitFacts.Callee
import UnitFacts.Symbol
import UnitFacts.Tree.Walk

/-!
How a name is accessed. The innermost operator or call around a use decides: the left side of an
assignment and the operand of an increment are written, the operand of an address-of has its address
taken, everything else is read. Node kinds do not tell one operator from another, so the tokens of
the operator do.
-/

namespace UnitFacts

def assignmentTokens : List String :=
  ["=", "+=", "-=", "*=", "/=", "%=", "<<=", ">>=", "&=", "^=", "|="]

def isAssignmentToken (token : String) : Bool := assignmentTokens.contains token

/-- The usage that an operator with these tokens gives its first operand. -/
def operandUsage (kind : NodeKind) (tokens : List String) : Usage :=
  match kind with
  | .compoundAssignOperator => .write
  | .binaryOperator => if tokens.any isAssignmentToken then .write else .read
  | .unaryOperator =>
    if tokens.any fun token => token = "++" || token = "--" then .write
    else if tokens.contains "&" then .addr
    else .read
  | _ => .read

/-- Kinds at which the question how a name is accessed is settled. -/
def NodeKind.settlesAccess : NodeKind → Bool
  | .compoundAssignOperator | .binaryOperator | .unaryOperator | .callExpr => true
  | _ => false

namespace Tree

/-- What an ancestor says about the access of a name below its child `child`; a transparent one says
nothing. -/
def accessAt? (t : Tree) (ancestor child : NodeId) : Option Usage :=
  match t.kind? ancestor with
  | none => none
  | some kind =>
    if kind.isTransparent || !kind.settlesAccess then none
    else if (t.children ancestor).head? = some child then some (operandUsage kind (t.tokens ancestor))
    else some .read

/-- How the visited node accesses its target. -/
def access (t : Tree) (v : Visit) : Usage :=
  (v.steps.findSome? fun (ancestor, child) => t.accessAt? ancestor child).getD .read

/-- Whether uses of a declaration are reported: never those of system headers, parameters and
local variables. -/
def isReportedTarget (t : Tree) (decl : NodeId) : Bool :=
  !t.inSystemHeader decl &&
    match t.kind? decl with
    | some .parmDecl => false
    | some .varDecl => !t.isLocal decl
    | _ => true

/-- The declaration a use is reported against. -/
def useTarget? (t : Tree) (id : NodeId) : Option NodeId :=
  (t.referenced? id).map fun decl => (t.callableFor? decl).getD decl

end Tree

end UnitFacts
