import UnitFacts.Dump.Build

/-!
Redeclarations, in groups around their first declarations. The nodes that redeclare something are gone through
in some order; the links of each are chased up to their end, and the groups and the nodes in them are kept along
the way. A chase that comes round or goes on for too long is given up where it is, and a node that is in a group
stays there. Every member of a group gets its first declaration as canonical and its definition, if it has one.
-/

namespace UnitFacts.Dump

/-- Links from a redeclaration to an earlier declaration, the newest first. -/
abbrev Chain := List (NodeId × NodeId)

def Draft.chain (d : Draft) : Chain :=
  d.previous.filterMap fun (node, name) =>
    match d.lookup? name with
    | some target => if target = node then none else some (node, target)
    | none => none

/-- The groups found so far, each under its first declaration, and the nodes that are in one. -/
structure Grouping where
  groups : List (NodeId × List NodeId) := []
  members : List NodeId := []

namespace Grouping

/-- Opens an empty group under a first declaration, unless there is one. -/
def openGroup (g : Grouping) (first : NodeId) : Grouping :=
  if first ∈ g.groups.map (·.1) then g else { g with groups := g.groups ++ [(first, [])] }

/-- Puts a node that is in no group yet at the end of one. -/
def insert (g : Grouping) (first id : NodeId) : Grouping :=
  if id ∈ g.members then g
  else
    { groups := g.groups.map fun group => if group.1 = first then (first, group.2 ++ [id]) else group
      members := id :: g.members }

end Grouping

namespace Chain

/-- The nodes that redeclare something, each once. -/
def redeclared (chain : Chain) : List NodeId := firstByKey id [] (chain.reverse.map (·.1))

/-- Follows the links from an earlier declaration of `node`, at most `fuel` of them; a link back to `node`
ends the chase. -/
def chase (chain : Chain) (node : NodeId) : Nat → NodeId → NodeId
  | 0, id => id
  | fuel + 1, id =>
    match chain.lookup id with
    | some earlier => if earlier = node then id else chase chain node fuel earlier
    | none => id

/-- Where the chase from a node ends, which follows one link more than there are nodes with one. -/
def chased (chain : Chain) (node : NodeId) : NodeId :=
  match chain.lookup node with
  | some previous => chain.chase node (chain.redeclared.length + 1) previous
  | none => node

/-- One step of the search: the group of a node is opened with its first declaration, and the node is put
into it. -/
def join (chain : Chain) (g : Grouping) (node : NodeId) : Grouping :=
  ((g.openGroup (chain.chased node)).insert (chain.chased node) (chain.chased node)).insert
    (chain.chased node) node

/-- What the search through some nodes finds. -/
def grouping (chain : Chain) (order : List NodeId) : Grouping := order.foldl chain.join {}

end Chain

/-- The groups of redeclarations, as they are gone through. -/
def Draft.groups (order : TableOrder) (d : Draft) : List (NodeId × List NodeId) :=
  order.groups (d.chain.grouping (order.nodes d.chain.redeclared)).groups

/-- Links one member of a group. -/
def linkMember (first : NodeId) (definition : Option NodeId) (t : Tree) (member : NodeId) : Tree :=
  let t := t.setCanonical member first
  match definition with
  | some definition => t.setDefinition member definition
  | none => t

/-- Links the members of groups, with the first of each group that is a definition. -/
def linkGroups (t : Tree) (groups : List (NodeId × List NodeId)) : Tree :=
  groups.foldl (fun t group => group.2.foldl (linkMember group.1 (group.2.find? t.isDefinition)) t) t

def linkRedeclarations (order : TableOrder) (d : Draft) (t : Tree) : Tree := linkGroups t (d.groups order)

end UnitFacts.Dump
