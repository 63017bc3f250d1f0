import UnitFacts.Proofs.Tree.Table

/-!
The links of a node: what it refers to, its canonical declaration and its definition. New nodes have none, and
no change touches them but those that set them.
-/

namespace UnitFacts

/-- What a node is linked to, its parents and children aside. -/
structure NodeLinks where
  referenced : Option NodeId := none
  canonical : Option NodeId := none
  definition : Option NodeId := none

def Node.nodeLinks (n : Node) : NodeLinks := ⟨n.referenced, n.canonical, n.definition⟩

namespace Tree

def linksOf (t : Tree) (id : NodeId) : NodeLinks := ((t.node? id).map Node.nodeLinks).getD {}

variable (t : Tree) (id k : NodeId)

theorem referenced?_eq_links : t.referenced? id = (t.linksOf id).referenced := by
  rw [referenced?, linksOf]
  cases t.node? id <;> rfl

theorem canonical?_eq_links : t.canonical? id = (t.linksOf id).canonical := by
  rw [canonical?, linksOf]
  cases t.node? id <;> rfl

theorem definition?_eq_links : t.definition? id = (t.linksOf id).definition := by
  rw [definition?, linksOf]
  cases t.node? id <;> rfl

theorem linksOf_modify (change : Node → Node) (h : ∀ n, (change n).nodeLinks = n.nodeLinks) :
    (t.modify id change).linksOf k = t.linksOf k := by
  rw [linksOf, t.map_node?_modify id change _ h, linksOf]

theorem linksOf_push {n : Node} (h : n.nodeLinks = {}) : (t.push n).2.linksOf k = t.linksOf k := by
  rw [linksOf, node?_push, linksOf]
  split
  · rename_i hk
    rw [hk, (t.node?_eq_none_iff t.size).mpr (Nat.le_refl _), Option.map_some, h]
    rfl
  · rfl

@[simp] theorem linksOf_attach (kind : NodeKind) (spelling : String) :
    (t.attach id kind spelling).2.linksOf k = t.linksOf k := by
  rw [attach, linksOf_modify, linksOf_push t k rfl]
  intro n
  rfl

@[simp] theorem linksOf_addLoose (scope : Option NodeId) (kind : NodeKind) (spelling : String) :
    (t.addLoose scope kind spelling).2.linksOf k = t.linksOf k := t.linksOf_push k rfl

@[simp] theorem linksOf_addFile (path : String) (isSystem : Bool) :
    (t.addFile path isSystem).linksOf k = t.linksOf k := by rw [linksOf, node?_addFile, linksOf]

@[simp] theorem linksOf_place (file : FileId) (line col : UInt32) :
    (t.place id file line col).linksOf k = t.linksOf k := by
  rw [place, linksOf_modify]
  intro n
  rfl

@[simp] theorem linksOf_setEndLine (line : UInt32) : (t.setEndLine id line).linksOf k = t.linksOf k := by
  rw [setEndLine, linksOf_modify]
  intro n
  rfl

@[simp] theorem linksOf_setSemanticParent (scope : Option NodeId) :
    (t.setSemanticParent id scope).linksOf k = t.linksOf k := by
  rw [setSemanticParent, linksOf_modify]
  intro n
  rfl

@[simp] theorem linksOf_markDefinition : (t.markDefinition id).linksOf k = t.linksOf k := by
  rw [markDefinition, linksOf_modify]
  intro n
  rfl

@[simp] theorem linksOf_setTokens (tokens : List String) : (t.setTokens id tokens).linksOf k = t.linksOf k := by
  rw [setTokens, linksOf_modify]
  intro n
  rfl

end Tree

end UnitFacts
