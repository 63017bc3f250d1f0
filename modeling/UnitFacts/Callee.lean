import UnitFacts.Tree.Basic

/-!
Which declaration a call invokes. A call rarely links to its callee: member calls, overload sets
and template instances bury the name under other nodes. Every node below the callee child that
leads to a callable declaration is a candidate; a candidate scores by its kind, less ten for each
level of depth, and of equal scores the first in pre-order wins.
-/

namespace UnitFacts

/-- How well a node of a kind carries the name of a callee. -/
def NodeKind.calleeWeight : NodeKind → Int
  | .memberRefExpr | .memberRef => 500
  | .declRefExpr => 400
  | .overloadedDeclRef => 350
  | .callExpr => 300
  | .typeRef => 250
  | .unexposedExpr => 200
  | _ => 100

def NodeKind.calleeScore (kind : NodeKind) (depth : Int) : Int := kind.calleeWeight - 10 * depth

structure Candidate where
  target : NodeId
  score : Int
  deriving DecidableEq, Repr

/-- The better of two candidates, the first on a tie. -/
def Candidate.better : Option Candidate → Option Candidate → Option Candidate
  | none, second => second
  | some first, none => some first
  | some first, some second => if second.score ≤ first.score then some first else some second

namespace Tree

def callableOnly (t : Tree) (id : Option NodeId) : Option NodeId :=
  id.filter fun id => t.kindIn NodeKind.isCallable id

/-- The declaration that uses of `decl` are reported against, if it is callable: its definition,
else the definition of its canonical declaration, else the canonical declaration, else itself. -/
def callableFor? (t : Tree) (decl : NodeId) : Option NodeId :=
  match t.callableOnly (t.definition? decl) with
  | some definition => some definition
  | none =>
    match t.callableOnly (t.canonical? decl) with
    | some canonical => (t.callableOnly (t.definition? canonical)).or (some canonical)
    | none => t.callableOnly (some decl)

/-- The child of a call that encodes the callee. -/
def calleeChild? (t : Tree) (call : NodeId) : Option NodeId :=
  ((t.children call).find? fun child => t.kindIn NodeKind.carriesCallee child).or (t.children call).head?

/-- The callable declaration that a node leads to by itself, children aside. -/
def ownCallable? (t : Tree) (id : NodeId) : Option NodeId :=
  ((t.referenced? id).bind t.callableFor?).or
    (if t.kindIn NodeKind.isCallable id then t.callableFor? id else none)

def ownCandidate? (t : Tree) (depth : Int) (id : NodeId) : Option Candidate :=
  match t.kind? id, t.ownCallable? id with
  | some kind, some target => some ⟨target, kind.calleeScore depth⟩
  | _, _ => none

/-- The best candidate at or below a node, at most `fuel` levels down; `depth` is the node's own. -/
def bestBelow (t : Tree) : Nat → Int → NodeId → Option Candidate
  | 0, _, _ => none
  | fuel + 1, depth, id =>
    (t.children id).foldl (fun best child => Candidate.better best (bestBelow t fuel (depth + 1) child))
      (t.ownCandidate? depth id)

/-- The best candidate at or below a node that stands at a given depth. No subtree of a well-formed
tree is deeper than the node table is long. -/
def bestCandidate? (t : Tree) (depth : Int) (id : NodeId) : Option Candidate :=
  t.bestBelow t.size depth id

/-- The declaration a call invokes: the one it links to, else the best candidate below its callee
child. -/
def callTarget? (t : Tree) (call : NodeId) : Option NodeId :=
  ((t.referenced? call).bind t.callableFor?).or
    (((t.calleeChild? call).bind (t.bestCandidate? 0)).map (·.target))

end Tree

end UnitFacts
