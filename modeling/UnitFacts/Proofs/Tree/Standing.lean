import UnitFacts.Proofs.Tree.Table

/-!
The standing of a node among the declarations of one thing: its canonical declaration, its definition, and
whether it is a definition itself. New nodes have none, and only the three changes that are made for it
touch it.
-/

namespace UnitFacts

/-- What a node says about the declarations that it belongs to. -/
structure Standing where
  canonical : Option NodeId := none
  definition : Option NodeId := none
  isDefinition : Bool := false

def Node.standing (n : Node) : Standing := ⟨n.canonical, n.definition, n.isDefinition⟩

namespace Tree

def standing (t : Tree) (id : NodeId) : Standing := ((t.node? id).map Node.standing).getD {}

variable (t : Tree) (id : NodeId)

theorem canonical?_eq_standing : t.canonical? id = (t.standing id).canonical := by
  rw [canonical?, standing]
  cases t.node? id <;> rfl

theorem definition?_eq_standing : t.definition? id = (t.standing id).definition := by
  rw [definition?, standing]
  cases t.node? id <;> rfl

theorem isDefinition_eq_standing : t.isDefinition id = (t.standing id).isDefinition := by
  rw [isDefinition, standing]
  cases t.node? id <;> rfl

theorem standing_modify (change : Node → Node) (h : ∀ n, (change n).standing = n.standing) (k : NodeId) :
    (t.modify id change).standing k = t.standing k := by
  rw [standing, t.map_node?_modify id change _ h, standing]

theorem standing_push {n : Node} (h : n.standing = {}) (k : NodeId) : (t.push n).2.standing k = t.standing k := by
  rw [standing, node?_push, standing]
  split
  · rename_i hk
    rw [hk, (t.node?_eq_none_iff t.size).mpr (Nat.le_refl _), Option.map_some, h]
    rfl
  · rfl

variable (k : NodeId)

@[simp] theorem standing_attach (kind : NodeKind) (spelling : String) :
    (t.attach id kind spelling).2.standing k = t.standing k := by
  rw [attach, standing_modify, standing_push t rfl]
  intro n
  rfl

@[simp] theorem standing_addFile (path : String) (isSystem : Bool) :
    (t.addFile path isSystem).standing k = t.standing k := by
  rw [standing, node?_addFile, standing]

@[simp] theorem standing_place (file : FileId) (line col : UInt32) :
    (t.place id file line col).standing k = t.standing k := by
  rw [place, standing_modify]
  intro n
  rfl

@[simp] theorem standing_setSemanticParent (scope : Option NodeId) :
    (t.setSemanticParent id scope).standing k = t.standing k := by
  rw [setSemanticParent, standing_modify]
  intro n
  rfl

@[simp] theorem standing_setReferenced (target : NodeId) :
    (t.setReferenced id target).standing k = t.standing k := by
  rw [setReferenced, standing_modify]
  intro n
  rfl

/-- Trees with the same nodes that agree in all else are the same. -/
theorem eq_of_node?_eq {t t' : Tree} (h : ∀ id, t'.node? id = t.node? id)
    (hrest : { t' with nodes := #[] } = { t with nodes := #[] }) : t' = t := by
  obtain ⟨files, root, nodes, inclusions, diagnostics⟩ := t
  obtain ⟨files', root', nodes', inclusions', diagnostics'⟩ := t'
  simp only [mk.injEq] at hrest ⊢
  exact ⟨hrest.1, hrest.2.1, Array.ext_getElem? h, hrest.2.2.2⟩

end Tree

end UnitFacts
