import UnitFacts.Proofs.Tree.Table

/-!
The shape of a tree: of each node its kind, its spelling, its lexical parent and its children. Only
attaching and adding nodes changes it; positions, links, flags and tokens are set without touching
it.
-/

namespace UnitFacts

/-- What a node says about its place in the tree. -/
structure Shape where
  kind : NodeKind
  spelling : String
  parent : Option NodeId
  children : List NodeId

def Node.shape (n : Node) : Shape := ⟨n.kind, n.spelling, n.lexicalParent, n.children⟩

/-- The shape with more children, after those it has. -/
def Shape.adopt (s : Shape) (ids : List NodeId) : Shape := { s with children := s.children ++ ids }

@[simp] theorem Shape.adopt_nil (s : Shape) : s.adopt [] = s := by simp [adopt]

@[simp] theorem Shape.adopt_adopt (s : Shape) (first second : List NodeId) :
    (s.adopt first).adopt second = s.adopt (first ++ second) := by
  simp [adopt]

namespace Tree

def shape? (t : Tree) (id : NodeId) : Option Shape := (t.node? id).map Node.shape

theorem kind?_eq_shape (t : Tree) (id : NodeId) : t.kind? id = (t.shape? id).map (·.kind) := by
  rw [shape?, Option.map_map]
  rfl

theorem spelling_eq_shape (t : Tree) (id : NodeId) :
    t.spelling id = ((t.shape? id).map (·.spelling)).getD "" := by
  rw [shape?, Option.map_map]
  rfl

theorem lexicalParent?_eq_shape (t : Tree) (id : NodeId) :
    t.lexicalParent? id = (t.shape? id).bind (·.parent) := by
  rw [shape?, Option.bind_map]
  rfl

theorem children_eq_shape (t : Tree) (id : NodeId) :
    t.children id = ((t.shape? id).map (·.children)).getD [] := by
  rw [shape?, Option.map_map]
  rfl

theorem shape?_eq_none_iff (t : Tree) (id : NodeId) : t.shape? id = none ↔ t.size ≤ id := by
  rw [shape?, Option.map_eq_none_iff, node?_eq_none_iff]

theorem lt_size_of_shape? {t : Tree} {id : NodeId} {s : Shape} (h : t.shape? id = some s) :
    id < t.size := by
  obtain ⟨n, hn, -⟩ := Option.map_eq_some_iff.mp h
  exact lt_size_of_node? hn

theorem lt_size_of_kind? {t : Tree} {id : NodeId} {kind : NodeKind} (h : t.kind? id = some kind) :
    id < t.size := by
  obtain ⟨n, hn, -⟩ := Option.map_eq_some_iff.mp h
  exact lt_size_of_node? hn

theorem size_eq_of_shape?_eq {t t' : Tree} (h : ∀ id, t'.shape? id = t.shape? id) :
    t'.size = t.size := by
  have hiff : ∀ id, t'.size ≤ id ↔ t.size ≤ id := by
    intro id
    rw [← shape?_eq_none_iff, ← shape?_eq_none_iff, h]
  exact Nat.le_antisymm ((hiff t.size).mpr (Nat.le_refl _)) ((hiff t'.size).mp (Nat.le_refl _))

variable (t : Tree)

theorem shape?_modify (id : NodeId) (change : Node → Node) (h : ∀ n, (change n).shape = n.shape)
    (k : NodeId) :
    (t.modify id change).shape? k = t.shape? k := t.map_node?_modify id change Node.shape h k

section Setters

variable (id k : NodeId)

@[simp] theorem shape?_place (file : FileId) (line col : UInt32) :
    (t.place id file line col).shape? k = t.shape? k := by
  rw [place, shape?_modify]
  intro n
  rfl

@[simp] theorem shape?_setEndLine (line : UInt32) :
    (t.setEndLine id line).shape? k = t.shape? k := by
  rw [setEndLine, shape?_modify]
  intro n
  rfl

@[simp] theorem shape?_setSemanticParent (scope : Option NodeId) :
    (t.setSemanticParent id scope).shape? k = t.shape? k := by
  rw [setSemanticParent, shape?_modify]
  intro n
  rfl

@[simp] theorem shape?_setReferenced (target : NodeId) :
    (t.setReferenced id target).shape? k = t.shape? k := by
  rw [setReferenced, shape?_modify]
  intro n
  rfl

@[simp] theorem shape?_setCanonical (target : NodeId) :
    (t.setCanonical id target).shape? k = t.shape? k := by
  rw [setCanonical, shape?_modify]
  intro n
  rfl

@[simp] theorem shape?_setDefinition (target : NodeId) :
    (t.setDefinition id target).shape? k = t.shape? k := by
  rw [setDefinition, shape?_modify]
  intro n
  rfl

@[simp] theorem shape?_markDefinition : (t.markDefinition id).shape? k = t.shape? k := by
  rw [markDefinition, shape?_modify]
  intro n
  rfl

@[simp] theorem shape?_setTokens (tokens : List String) :
    (t.setTokens id tokens).shape? k = t.shape? k := by
  rw [setTokens, shape?_modify]
  intro n
  rfl

end Setters

@[simp] theorem shape?_addFile (path : String) (isSystem : Bool) (k : NodeId) :
    (t.addFile path isSystem).shape? k = t.shape? k := by rw [shape?, node?_addFile, shape?]

theorem shape?_attach {parent : NodeId} (hp : parent < t.size) (kind : NodeKind) (spelling : String)
    (k : NodeId) :
    (t.attach parent kind spelling).2.shape? k =
      if k = t.size then some ⟨kind, spelling, some parent, []⟩
      else if k = parent then (t.shape? k).map (·.adopt [t.size])
      else t.shape? k := by
  rw [shape?, node?_attach t parent kind spelling hp]
  split
  · rfl
  · split
    · rw [shape?, Option.map_map, Option.map_map]
      rfl
    · rfl

theorem shape?_addLoose (scope : Option NodeId) (kind : NodeKind) (spelling : String) (k : NodeId) :
    (t.addLoose scope kind spelling).2.shape? k =
      if k = t.size then some ⟨kind, spelling, none, []⟩ else t.shape? k := by
  rw [addLoose, shape?, node?_push]
  split <;> rfl

/-- Whether a node is other than a type reference. -/
def isOwn (id : NodeId) : Bool := t.kind? id ≠ some .typeRef

/-- The shape of a node with type references left out of its children. -/
def ownShape? (id : NodeId) : Option Shape :=
  (t.shape? id).map fun s => { s with children := s.children.filter t.isOwn }

end Tree

end UnitFacts
