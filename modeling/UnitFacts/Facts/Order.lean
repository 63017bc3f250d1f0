import UnitFacts.Facts.Basic
import UnitFacts.Unique

/-!
The order of the reported lists. References are ordered by symbol, line, column and usage, calls by
caller, callee and line, inclusions by path and depth; texts are ordered by code point. Lists are
sorted without repetitions, a read at the site of a call to the same symbol is left out, and of
several inclusions of one path the shallowest stays.
-/

namespace UnitFacts

namespace ReferenceFact

protected def compare (a b : ReferenceFact) : Ordering :=
  (compare a.symbol b.symbol).then <| (compare a.line b.line).then <|
    (compare a.col b.col).then (compare a.usage b.usage)

instance : Ord ReferenceFact := ⟨ReferenceFact.compare⟩

/-- Whether both facts are about one symbol at one place. -/
def sameSite (a b : ReferenceFact) : Bool :=
  a.symbol = b.symbol && a.line = b.line && a.col = b.col

end ReferenceFact

namespace CallEdge

protected def compare (a b : CallEdge) : Ordering :=
  (compare a.caller b.caller).then <| (compare a.callee b.callee).then (compare a.line b.line)

instance : Ord CallEdge := ⟨CallEdge.compare⟩

end CallEdge

namespace IncludeDep

protected def compare (a b : IncludeDep) : Ordering :=
  (compare a.path b.path).then (compare a.depth b.depth)

instance : Ord IncludeDep := ⟨IncludeDep.compare⟩

end IncludeDep

def sortAscending {α : Type} [Ord α] (items : List α) : List α :=
  items.mergeSort fun a b => (compare a b).isLE

def sortUnique {α : Type} [Ord α] [DecidableEq α] (items : List α) : List α :=
  dropRepeats (fun a b => decide (a = b)) (sortAscending items)

namespace ReferenceFact

/-- Whether a call to the same symbol at the same place hides this read. -/
def isShadowed (facts : List ReferenceFact) (fact : ReferenceFact) : Bool :=
  fact.usage = .read && facts.any fun other => other.usage = .call && other.sameSite fact

def tidy (facts : List ReferenceFact) : List ReferenceFact :=
  let unique := sortUnique facts
  unique.filter fun fact => !isShadowed unique fact

end ReferenceFact

def CallEdge.tidy (edges : List CallEdge) : List CallEdge := sortUnique edges

def IncludeDep.tidy (deps : List IncludeDep) : List IncludeDep :=
  dropRepeats (fun a b => decide (a.path = b.path)) (sortAscending deps)

end UnitFacts
