import UnitFacts.Tree.Basic

/-!
Tables without an order of their own. Two tables of the reading of a dump are gone through entry by entry, and
nothing says which entry comes first; a reading may do it in one order and the next reading of the same dump in
another.
-/

namespace UnitFacts.Dump

/-- The orders in which a reading goes through the nodes that redeclare something and through the groups that it
puts them into. -/
structure TableOrder where
  nodes : List NodeId → List NodeId
  groups : List (NodeId × List NodeId) → List (NodeId × List NodeId)
  nodes_perm : ∀ ids, (nodes ids).Perm ids
  groups_perm : ∀ entries, (groups entries).Perm entries

namespace TableOrder

/-- The order of the document. -/
def ofDocument : TableOrder where
  nodes ids := ids
  groups entries := entries
  nodes_perm := .refl
  groups_perm := .refl

/-- The order of the document, from its end. -/
def backwards : TableOrder where
  nodes := List.reverse
  groups := List.reverse
  nodes_perm := List.reverse_perm
  groups_perm := List.reverse_perm

end TableOrder

end UnitFacts.Dump
