import UnitFacts.Tree.Edit

/-!
Look-ups in a node table that has been changed. Nodes are only ever modified in place or added at
the end, so a look-up after a change is the old look-up, the changed node or the new one. What a
change leaves alone is found again through `map_node?_modify`.
-/

namespace UnitFacts.Tree

theorem node?_eq_none_iff (t : Tree) (id : NodeId) : t.node? id = none ↔ t.size ≤ id := by
  simp [node?, size]

theorem lt_size_of_node? {t : Tree} {id : NodeId} {n : Node} (h : t.node? id = some n) :
    id < t.size := by
  apply Nat.lt_of_not_le
  intro hle
  rw [(t.node?_eq_none_iff id).mpr hle] at h
  cases h

theorem exists_node? {t : Tree} {id : NodeId} (h : id < t.size) : ∃ n, t.node? id = some n := by
  cases hn : t.node? id with
  | some n => exact ⟨n, rfl⟩
  | none =>
    have hle := (t.node?_eq_none_iff id).mp hn
    lia

theorem mem_nodes_iff (t : Tree) (n : Node) :
    n ∈ t.nodes.toList ↔ ∃ id, t.node? id = some n := by
  rw [List.mem_iff_getElem?]
  simp [node?]

/-- What every step leaves alone is the same after all of them. -/
theorem view_foldl {α β : Type} (view : Tree → β) {step : Tree → α → Tree}
    (h : ∀ t item, view (step t item) = view t) (items : List α) (t : Tree) :
    view (items.foldl step t) = view t := by
  induction items generalizing t with
  | nil => rfl
  | cons item rest ih => rw [List.foldl_cons, ih, h]

section Modify

variable (t : Tree) (id : NodeId) (change : Node → Node)

@[simp] theorem size_modify : (t.modify id change).size = t.size := by simp [size, modify]

@[simp] theorem files_modify : (t.modify id change).files = t.files := rfl

theorem node?_modify (k : NodeId) :
    (t.modify id change).node? k = if id = k then (t.node? k).map change else t.node? k := by
  simp [node?, modify, Array.getElem?_modify]

/-- A part of the nodes that a change leaves alone is the same everywhere afterwards. -/
theorem map_node?_modify {α : Type} (part : Node → α) (h : ∀ n, part (change n) = part n)
    (k : NodeId) :
    ((t.modify id change).node? k).map part = (t.node? k).map part := by
  rw [node?_modify]
  split
  · cases t.node? k <;> simp [h]
  · rfl

theorem bind_node?_modify {α : Type} (part : Node → Option α) (h : ∀ n, part (change n) = part n)
    (k : NodeId) : ((t.modify id change).node? k).bind part = (t.node? k).bind part := by
  rw [node?_modify]
  split
  · cases t.node? k <;> simp [h]
  · rfl

theorem children_modify (h : ∀ n, (change n).children = n.children) (k : NodeId) :
    (t.modify id change).children k = t.children k := by
  simp only [children, t.map_node?_modify id change _ h]

theorem lexicalParent?_modify (h : ∀ n, (change n).lexicalParent = n.lexicalParent) (k : NodeId) :
    (t.modify id change).lexicalParent? k = t.lexicalParent? k := t.bind_node?_modify id change _ h k

theorem semanticParent?_modify (h : ∀ n, (change n).semanticParent = n.semanticParent)
    (k : NodeId) :
    (t.modify id change).semanticParent? k = t.semanticParent? k := t.bind_node?_modify id change _ h k

theorem referenced?_modify (h : ∀ n, (change n).referenced = n.referenced) (k : NodeId) :
    (t.modify id change).referenced? k = t.referenced? k := t.bind_node?_modify id change _ h k

theorem semanticParent?_setSemanticParent {id : NodeId} (hid : id < t.size) (scope : Option NodeId) (k : NodeId) :
    (t.setSemanticParent id scope).semanticParent? k = if k = id then scope else t.semanticParent? k := by
  rw [setSemanticParent, semanticParent?, node?_modify]
  by_cases hk : k = id
  · obtain ⟨n, hn⟩ := exists_node? hid
    simp [hk, hn]
  · simp [hk, Ne.symm hk, semanticParent?]

theorem mem_nodes_modify {n : Node} (h : n ∈ (t.modify id change).nodes.toList) :
    n ∈ t.nodes.toList ∨ ∃ m ∈ t.nodes.toList, n = change m := by
  obtain ⟨k, hk⟩ := (mem_nodes_iff _ n).mp h
  rw [node?_modify] at hk
  split at hk
  · obtain ⟨m, hm, rfl⟩ := Option.map_eq_some_iff.mp hk
    exact Or.inr ⟨m, (t.mem_nodes_iff m).mpr ⟨k, hm⟩, rfl⟩
  · exact Or.inl ((t.mem_nodes_iff n).mpr ⟨k, hk⟩)

end Modify

section Push

variable (t : Tree) (n : Node)

@[simp] theorem fst_push : (t.push n).1 = t.nextId := by simp [push, nextId]

@[simp] theorem size_push : (t.push n).2.size = t.size + 1 := by simp [size, push]

theorem node?_push (k : NodeId) :
    (t.push n).2.node? k = if k = t.size then some n else t.node? k := by
  unfold node? push size
  exact Array.getElem?_push

theorem mem_nodes_push {m : Node} (h : m ∈ (t.push n).2.nodes.toList) :
    m ∈ t.nodes.toList ∨ m = n := by
  simpa [push] using h

end Push

section Attach

variable (t : Tree) (parent : NodeId) (kind : NodeKind) (spelling : String)

@[simp] theorem fst_attach : (t.attach parent kind spelling).1 = t.nextId := t.fst_push _

@[simp] theorem size_attach : (t.attach parent kind spelling).2.size = t.size + 1 := by simp [attach]

/-- The node that is attached below a parent. -/
def attachedNode : Node :=
  { kind, spelling, lexicalParent := some parent, semanticParent := t.scopeFor? parent }

theorem snd_attach :
    (t.attach parent kind spelling).2 = (t.push (t.attachedNode parent kind spelling)).2.modify parent fun n =>
      { n with children := n.children ++ [t.nextId] } := by
  rw [attach, ← t.fst_push (t.attachedNode parent kind spelling)]
  rfl

theorem node?_attach (hp : parent < t.size) (k : NodeId) :
    (t.attach parent kind spelling).2.node? k =
      if k = t.size then some (t.attachedNode parent kind spelling)
      else if k = parent then (t.node? k).map fun n => { n with children := n.children ++ [t.size] }
      else t.node? k := by
  rw [snd_attach, node?_modify, node?_push]
  by_cases hk : k = t.size
  · have hne : parent ≠ k := by lia
    simp [hk, hk ▸ hne]
  · by_cases hkp : k = parent
    · subst hkp
      simp only [hk, if_true, if_false]
      rfl
    · simp [hk, hkp, Ne.symm hkp]

theorem children_attach (hp : parent < t.size) (k : NodeId) :
    (t.attach parent kind spelling).2.children k =
      if k = parent then t.children parent ++ [t.size] else t.children k := by
  unfold children
  rw [node?_attach t parent kind spelling hp]
  by_cases hk : k = t.size
  · have hne : k ≠ parent := by lia
    have hnone := (t.node?_eq_none_iff k).mpr (by lia)
    simp [hk ▸ hne, hk, hk ▸ hnone, attachedNode]
  · by_cases hkp : k = parent
    · obtain ⟨n, hn⟩ := exists_node? hp
      simp [hkp, hn, hkp ▸ hk]
    · simp [hk, hkp]

/-- What is not about children is as before, except at the new node. -/
theorem bind_node?_attach {α : Type} (part : Node → Option α)
    (hpart : ∀ n children, part { n with children := children } = part n) (hp : parent < t.size)
    (k : NodeId) :
    ((t.attach parent kind spelling).2.node? k).bind part =
      if k = t.size then part (t.attachedNode parent kind spelling) else (t.node? k).bind part := by
  rw [node?_attach t parent kind spelling hp]
  by_cases hk : k = t.size
  · simp [hk]
  · by_cases hkp : k = parent
    · subst hkp
      cases hn : t.node? k <;> simp [hk, hpart]
    · simp [hk, hkp]

theorem lexicalParent?_attach (hp : parent < t.size) (k : NodeId) :
    (t.attach parent kind spelling).2.lexicalParent? k =
      if k = t.size then some parent else t.lexicalParent? k :=
  t.bind_node?_attach parent kind spelling _ (fun _ _ => rfl) hp k

theorem semanticParent?_attach (hp : parent < t.size) (k : NodeId) :
    (t.attach parent kind spelling).2.semanticParent? k =
      if k = t.size then t.scopeFor? parent else t.semanticParent? k :=
  t.bind_node?_attach parent kind spelling _ (fun _ _ => rfl) hp k

end Attach

section AddLoose

variable (t : Tree) (scope : Option NodeId) (kind : NodeKind) (spelling : String)

@[simp] theorem fst_addLoose : (t.addLoose scope kind spelling).1 = t.nextId := t.fst_push _

@[simp] theorem size_addLoose :
    (t.addLoose scope kind spelling).2.size = t.size + 1 := by simp [addLoose]

theorem children_addLoose (k : NodeId) :
    (t.addLoose scope kind spelling).2.children k = t.children k := by
  unfold children addLoose
  rw [node?_push]
  by_cases hk : k = t.size
  · have hnone := (t.node?_eq_none_iff k).mpr (by lia)
    simp [hk, hk ▸ hnone]
  · simp [hk]

theorem lexicalParent?_addLoose (k : NodeId) :
    (t.addLoose scope kind spelling).2.lexicalParent? k = t.lexicalParent? k := by
  unfold lexicalParent? addLoose
  rw [node?_push]
  by_cases hk : k = t.size
  · have hnone := (t.node?_eq_none_iff k).mpr (by lia)
    simp [hk, hk ▸ hnone]
  · simp [hk]

theorem semanticParent?_addLoose (k : NodeId) :
    (t.addLoose scope kind spelling).2.semanticParent? k =
      if k = t.size then scope else t.semanticParent? k := by
  unfold semanticParent? addLoose
  rw [node?_push]
  by_cases hk : k = t.size <;> simp [hk]

end AddLoose

section AddFile

variable (t : Tree) (path : String) (isSystem : Bool)

@[simp] theorem nodes_addFile : (t.addFile path isSystem).nodes = t.nodes := by
  unfold addFile
  split <;> rfl

@[simp] theorem root_addFile : (t.addFile path isSystem).root = t.root := by
  unfold addFile
  split <;> rfl

@[simp] theorem size_addFile : (t.addFile path isSystem).size = t.size := by simp [size]

theorem node?_addFile (k : NodeId) :
    (t.addFile path isSystem).node? k = t.node? k := by simp [node?]

theorem isPrefix_files_addFile : t.files <+: (t.addFile path isSystem).files := by
  unfold addFile
  split
  · exact List.prefix_refl _
  · exact List.prefix_append _ _

theorem exists_fileId?_addFile : ∃ file, (t.addFile path isSystem).fileId? path = some file := by
  unfold addFile
  cases hfound : t.fileId? path with
  | some file => exact ⟨file, hfound⟩
  | none =>
    rw [← Option.isSome_iff_exists]
    simp [fileId?]

end AddFile

theorem lexicalParent?_size (t : Tree) : t.lexicalParent? t.size = none := by
  simp [lexicalParent?, (t.node?_eq_none_iff t.size).mpr (Nat.le_refl _)]

end UnitFacts.Tree
