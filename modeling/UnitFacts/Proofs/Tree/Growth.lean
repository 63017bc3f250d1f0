import Mathlib.Data.List.Nodup
import UnitFacts.Proofs.Tree.Check

/-!
Trees that grow by changes. Whatever changes are made to existing nodes, children lists and lexical
parents mirror each other (`Nested`). A change is sound if moreover all it links to exists and no
cycle of semantic parents is closed; sound changes keep a tree sound, and a sound tree is well
formed.
-/

namespace UnitFacts

namespace Tree

/-- Children lists and lexical parents mirror each other, and parents are older than children. -/
structure Nested (t : Tree) : Prop where
  root_eq : t.root = 0
  size_pos : 0 < t.size
  mem_children_iff : ∀ parent child, child ∈ t.children parent ↔ t.lexicalParent? child = some parent
  children_nodup : ∀ parent, (t.children parent).Nodup
  parent_lt : ∀ child parent, t.lexicalParent? child = some parent → parent < child

namespace Nested

variable {t : Tree}

theorem lt_size {child parent : NodeId} (h : t.lexicalParent? child = some parent) :
    child < t.size := by
  obtain ⟨n, hn, -⟩ := Option.bind_eq_some_iff.mp h
  exact lt_size_of_node? hn

theorem lexicalParent?_root (ht : t.Nested) : t.lexicalParent? t.root = none := by
  cases h : t.lexicalParent? t.root with
  | none => rfl
  | some parent =>
    have hlt := ht.parent_lt t.root parent h
    rw [ht.root_eq] at hlt
    exact absurd hlt (Nat.not_lt_zero parent)

theorem start (mainFile : String) : (Tree.start mainFile).Nested := by
  have hnode : ∀ k, (Tree.start mainFile).node? k =
      if k = 0 then some { kind := .unit, spelling := mainFile } else none := by
    intro k
    cases k <;> simp [Tree.start, node?]
  have hchildren : ∀ k, (Tree.start mainFile).children k = [] := by
    intro k
    by_cases hk : k = 0 <;> simp [children, hnode, hk]
  have hparent : ∀ k, (Tree.start mainFile).lexicalParent? k = none := by
    intro k
    by_cases hk : k = 0 <;> simp [lexicalParent?, hnode, hk]
  exact ⟨rfl, by simp [Tree.start, size], by simp [hchildren, hparent], by simp [hchildren],
    by simp [hparent]⟩

theorem of_eq (ht : t.Nested) {t' : Tree} (hroot : t'.root = t.root) (hsize : t.size ≤ t'.size)
    (hchildren : ∀ k, t'.children k = t.children k)
    (hparent : ∀ k, t'.lexicalParent? k = t.lexicalParent? k) : t'.Nested where
  root_eq := hroot.trans ht.root_eq
  size_pos := Nat.lt_of_lt_of_le ht.size_pos hsize
  mem_children_iff parent child := by rw [hchildren, hparent, ht.mem_children_iff]
  children_nodup parent := by rw [hchildren]; exact ht.children_nodup parent
  parent_lt child parent h := ht.parent_lt child parent (by rwa [hparent] at h)

theorem modify (ht : t.Nested) (id : NodeId) (change : Node → Node)
    (hchildren : ∀ n, (change n).children = n.children)
    (hparent : ∀ n, (change n).lexicalParent = n.lexicalParent) : (t.modify id change).Nested :=
  ht.of_eq rfl (Nat.le_of_eq (t.size_modify id change).symm)
    (t.children_modify id change hchildren) (t.lexicalParent?_modify id change hparent)

theorem attach (ht : t.Nested) {parent : NodeId} (hp : parent < t.size) (kind : NodeKind)
    (spelling : String) : (t.attach parent kind spelling).2.Nested where
  root_eq := ht.root_eq
  size_pos := by simp
  mem_children_iff p child := by
    rw [children_attach t parent kind spelling hp, lexicalParent?_attach t parent kind spelling hp]
    have hold := ht.mem_children_iff
    by_cases hc : child = t.size
    · -- the new node is in no older list
      subst hc
      have hnot : t.size ∉ t.children p := by
        rw [hold, lexicalParent?_size]
        simp
      by_cases hpp : p = parent
      · simp [hpp]
      · simp [hpp, hnot, Ne.symm hpp]
    · by_cases hpp : p = parent
      · simp [hpp, hc, hold]
      · simp [hpp, hc, hold]
  children_nodup p := by
    rw [children_attach t parent kind spelling hp]
    split
    · have hnot : t.size ∉ t.children parent := by
        rw [ht.mem_children_iff, lexicalParent?_size]
        simp
      rw [List.nodup_append]
      refine ⟨ht.children_nodup parent, by simp, ?_⟩
      intro a ha b hb
      rw [List.mem_singleton] at hb
      intro heq
      exact hnot (hb ▸ heq ▸ ha)
    · exact ht.children_nodup p
  parent_lt child p h := by
    rw [lexicalParent?_attach t parent kind spelling hp] at h
    split at h
    · rename_i hc
      have hpp : parent = p := by simpa using h
      lia
    · exact ht.parent_lt child p h

end Nested

/-- Links and files of all nodes exist. -/
structure InRange (t : Tree) : Prop where
  links_lt : ∀ n ∈ t.nodes.toList, ∀ target ∈ n.links, target < t.size
  files_lt : ∀ n ∈ t.nodes.toList, ∀ position ∈ n.position, position.file < t.files.length

namespace InRange

variable {t : Tree}

theorem modify (ht : t.InRange) (id : NodeId) (change : Node → Node)
    (hlinks : ∀ n, ∀ target ∈ (change n).links, target ∈ n.links ∨ target < t.size)
    (hfiles : ∀ n, ∀ position ∈ (change n).position,
      position ∈ n.position ∨ position.file < t.files.length) : (t.modify id change).InRange where
  links_lt n hn target htarget := by
    rw [size_modify]
    rcases t.mem_nodes_modify id change hn with hold | ⟨m, hm, rfl⟩
    · exact ht.links_lt n hold target htarget
    · exact (hlinks m target htarget).elim (ht.links_lt m hm target) fun h => h
  files_lt n hn position hposition := by
    rw [files_modify]
    rcases t.mem_nodes_modify id change hn with hold | ⟨m, hm, rfl⟩
    · exact ht.files_lt n hold position hposition
    · exact (hfiles m position hposition).elim (ht.files_lt m hm position) fun h => h

theorem push (ht : t.InRange) (n : Node) (hlinks : ∀ target ∈ n.links, target < t.size)
    (hposition : n.position = none) : (t.push n).2.InRange where
  links_lt m hm target htarget := by
    rw [size_push]
    rcases t.mem_nodes_push n hm with hold | rfl
    · exact Nat.lt_succ_of_lt (ht.links_lt m hold target htarget)
    · exact Nat.lt_succ_of_lt (hlinks target htarget)
  files_lt m hm position hmem := by
    rcases t.mem_nodes_push n hm with hold | rfl
    · exact ht.files_lt m hold position hmem
    · simp [hposition] at hmem

end InRange

structure Sound (t : Tree) : Prop where
  nested : t.Nested
  inRange : t.InRange
  scopes_end : WellFounded t.Encloses

namespace Sound

variable {t : Tree}

theorem isScoped (ht : t.Sound) : t.Scoped := t.scoped_of_links ht.inRange.links_lt ht.scopes_end

theorem start (mainFile : String) : (Tree.start mainFile).Sound := by
  have hnone : ∀ k, (Tree.start mainFile).semanticParent? k = none := by
    intro k
    cases k <;> simp [Tree.start, semanticParent?, node?]
  refine ⟨Nested.start mainFile, ⟨?_, ?_⟩, ⟨?_⟩⟩
  · simp [Tree.start, mem_links_iff]
  · simp [Tree.start]
  · intro id
    constructor
    intro p hp
    simp [Encloses, hnone] at hp

/-- A change of one node that keeps its place in the tree and its scope. -/
theorem modify (ht : t.Sound) (id : NodeId) (change : Node → Node)
    (hchildren : ∀ n, (change n).children = n.children)
    (hparent : ∀ n, (change n).lexicalParent = n.lexicalParent)
    (hscope : ∀ n, (change n).semanticParent = n.semanticParent)
    (hlinks : ∀ n, ∀ target ∈ (change n).links, target ∈ n.links ∨ target < t.size)
    (hfiles : ∀ n, ∀ position ∈ (change n).position,
      position ∈ n.position ∨ position.file < t.files.length) : (t.modify id change).Sound where
  nested := ht.nested.modify id change hchildren hparent
  inRange := ht.inRange.modify id change hlinks hfiles
  scopes_end := (ht.isScoped.of_eq (Nat.le_of_eq (t.size_modify id change).symm)
    (t.semanticParent?_modify id change hscope)).ends

theorem setSemanticParent (ht : t.Sound) {id : NodeId} {scope : Option NodeId} (hid : id < t.size)
    (hscope : ∀ s ∈ scope, s < t.size ∧ ¬ t.IsAround id s) : (t.setSemanticParent id scope).Sound where
  nested := ht.nested.modify id _ (fun _ => rfl) (fun _ => rfl)
  inRange := by
    apply ht.inRange.modify id
    · intro n target htarget
      rw [mem_links_iff] at htarget ⊢
      rcases htarget with h | h | h
      · exact Or.inl (Or.inl h)
      · exact Or.inr (hscope target h).1
      · exact Or.inl (Or.inr (Or.inr h))
    · intro n position h
      exact Or.inl h
  scopes_end := by
    have hsize : t.size ≤ (t.setSemanticParent id scope).size :=
      Nat.le_of_eq (t.size_modify id _).symm
    apply (ht.isScoped.redirect id hsize ?_ ?_).ends
    · intro k hk
      rw [t.semanticParent?_setSemanticParent hid, if_neg hk]
    · intro s hs
      rw [t.semanticParent?_setSemanticParent hid, if_pos rfl] at hs
      exact ⟨Nat.lt_of_lt_of_le (hscope s hs).1 hsize, (hscope s hs).2⟩

/-- No chain of semantic parents goes through an index outside the table. -/
theorem not_isAround_size (ht : t.Sound) {inner : NodeId} (h : inner < t.size) :
    ¬ t.IsAround t.size inner := fun haround =>
  Nat.lt_irrefl _ (ht.isScoped.lt_size_of_isAround haround h)

theorem scopeFor?_lt (ht : t.Sound) {parent scope : NodeId} (hp : parent < t.size)
    (h : t.scopeFor? parent = some scope) : scope < t.size := by
  unfold scopeFor? at h
  split at h
  · exact Option.some.inj h ▸ hp
  · exact ht.isScoped.lt scope parent h

theorem attach (ht : t.Sound) {parent : NodeId} (hp : parent < t.size) (kind : NodeKind)
    (spelling : String) : (t.attach parent kind spelling).2.Sound where
  nested := ht.nested.attach hp kind spelling
  inRange := by
    apply (ht.inRange.push (t.attachedNode parent kind spelling) ?_ rfl).modify parent
    · intro n target h
      exact Or.inl h
    · intro n position h
      exact Or.inl h
    · intro target h
      rw [mem_links_iff] at h
      rcases h with h | h | h | h | h
      · exact Option.some.inj h ▸ hp
      · exact ht.scopeFor?_lt hp h
      · cases h
      · cases h
      · cases h
  scopes_end := by
    apply (ht.isScoped.redirect t.size (by simp) ?_ ?_).ends
    · intro k hk
      rw [semanticParent?_attach t parent kind spelling hp, if_neg hk]
    · intro s hs
      rw [semanticParent?_attach t parent kind spelling hp, if_pos rfl] at hs
      have hlt := ht.scopeFor?_lt hp hs
      exact ⟨by rw [size_attach]; exact Nat.lt_succ_of_lt hlt, ht.not_isAround_size hlt⟩

theorem addLoose (ht : t.Sound) {scope : Option NodeId} (hscope : ∀ s ∈ scope, s < t.size)
    (kind : NodeKind) (spelling : String) : (t.addLoose scope kind spelling).2.Sound where
  nested := ht.nested.of_eq rfl (by simp) (t.children_addLoose scope kind spelling)
    (t.lexicalParent?_addLoose scope kind spelling)
  inRange := by
    apply ht.inRange.push _ ?_ rfl
    intro target h
    rw [mem_links_iff] at h
    rcases h with h | h | h | h | h
    · cases h
    · exact hscope target h
    · cases h
    · cases h
    · cases h
  scopes_end := by
    apply (ht.isScoped.redirect t.size (by simp) ?_ ?_).ends
    · intro k hk
      rw [semanticParent?_addLoose, if_neg hk]
    · intro s hs
      rw [semanticParent?_addLoose, if_pos rfl] at hs
      have hlt := hscope s hs
      exact ⟨by rw [size_addLoose]; exact Nat.lt_succ_of_lt hlt, ht.not_isAround_size hlt⟩

/-- Tables of files, inclusions and diagnostics may grow freely. -/
theorem of_nodes_eq (ht : t.Sound) {t' : Tree} (hnodes : t'.nodes = t.nodes)
    (hroot : t'.root = t.root)
    (hfiles : t.files.length ≤ t'.files.length) : t'.Sound := by
  have hsize : t'.size = t.size := by rw [size, size, hnodes]
  have hnode : ∀ k, t'.node? k = t.node? k := fun k => by rw [node?, node?, hnodes]
  refine ⟨ht.nested.of_eq hroot (Nat.le_of_eq hsize.symm) ?_ ?_, ⟨?_, ?_⟩, ?_⟩
  · intro k
    rw [children, children, hnode]
  · intro k
    rw [lexicalParent?, lexicalParent?, hnode]
  · rw [hnodes, hsize]
    exact ht.inRange.links_lt
  · intro n hn position hposition
    rw [hnodes] at hn
    exact Nat.lt_of_lt_of_le (ht.inRange.files_lt n hn position hposition) hfiles
  · apply (ht.isScoped.of_eq (Nat.le_of_eq hsize.symm) ?_).ends
    intro k
    rw [semanticParent?, semanticParent?, hnode]

theorem wellFormed (ht : t.Sound) : t.WellFormed := by
  have hchild : ∀ child ∈ t.allChildren, ∃ parent, t.lexicalParent? child = some parent := by
    intro child h
    obtain ⟨n, hn, hc⟩ := List.mem_flatMap.mp h
    obtain ⟨parent, hp⟩ := (t.mem_nodes_iff n).mp hn
    exact ⟨parent, (ht.nested.mem_children_iff parent child).mp (by simpa [children, hp] using hc)⟩
  refine ⟨?_, ht.inRange.links_lt, ht.inRange.files_lt, ?_, ?_, ?_, ht.scopes_end⟩
  · rw [ht.nested.root_eq]
    exact ht.nested.size_pos
  · intro child h
    obtain ⟨parent, hp⟩ := hchild child h
    exact Nested.lt_size hp
  · have hlist : ∀ (i : Nat) (hi : i < t.nodes.toList.length),
        (t.nodes.toList[i]).children = t.children i := by
      intro i hi
      simp [children, node?, List.getElem?_eq_getElem hi, ← Array.getElem?_toList]
    apply List.nodup_flatMap.mpr
    constructor
    · intro n hn
      obtain ⟨id, hid⟩ := (t.mem_nodes_iff n).mp hn
      simpa [children, hid] using ht.nested.children_nodup id
    · -- a child in two lists would have two lexical parents
      rw [List.pairwise_iff_getElem]
      intro i j hi hj hij child hci hcj
      beta_reduce at hci hcj
      rw [hlist i hi, ht.nested.mem_children_iff] at hci
      rw [hlist j hj, ht.nested.mem_children_iff, hci] at hcj
      have heq := Option.some.inj hcj
      lia
  · intro h
    obtain ⟨parent, hp⟩ := hchild t.root h
    rw [ht.nested.lexicalParent?_root] at hp
    cases hp

end Sound

end Tree

namespace Edit

/-- What a change links to exists, and it closes no cycle of semantic parents. -/
def IsSound (t : Tree) : Edit → Prop
  | .attach parent _ _ => parent < t.size
  | .addLoose scope _ _ => ∀ s ∈ scope, s < t.size
  | .place node file _ _ => node < t.size ∧ file < t.files.length
  | .setSemanticParent node scope => node < t.size ∧ ∀ s ∈ scope, s < t.size ∧ ¬ t.IsAround node s
  | .setReferenced node target | .setCanonical node target | .setDefinition node target =>
    node < t.size ∧ target < t.size
  | .setEndLine node _ | .markDefinition node | .setTokens node _ => node < t.size
  | .addFile .. | .addInclusion _ | .addDiagnostic _ => True

theorem IsSound.isAllowed {t : Tree} {edit : Edit} (h : edit.IsSound t) :
    edit.isAllowed t = true := by
  cases edit <;> simp_all [IsSound, Edit.isAllowed, subject?]

theorem IsSound.apply {t : Tree} {edit : Edit} (ht : t.Sound) (h : edit.IsSound t) :
    (edit.apply t).Sound := by
  cases edit with
  | attach parent kind spelling => exact ht.attach h kind spelling
  | addLoose scope kind spelling => exact ht.addLoose h kind spelling
  | addFile path isSystem =>
    exact ht.of_nodes_eq (t.nodes_addFile path isSystem) (t.root_addFile path isSystem)
      (t.isPrefix_files_addFile path isSystem).length_le
  | place node file line col =>
    refine ht.modify node (fun n => { n with position := some ⟨file, line, col⟩ }) (fun _ => rfl)
      (fun _ => rfl) (fun _ => rfl) (fun _ _ hlink => Or.inl hlink) ?_
    intro n position hposition
    exact Or.inr (Option.some.inj hposition ▸ h.2)
  | setSemanticParent node scope => exact ht.setSemanticParent h.1 h.2
  | setReferenced node target =>
    refine ht.modify node (fun n => { n with referenced := some target }) (fun _ => rfl)
      (fun _ => rfl) (fun _ => rfl) ?_ (fun _ _ hfile => Or.inl hfile)
    intro n link hlink
    rw [Tree.mem_links_iff] at hlink ⊢
    grind [IsSound]
  | setCanonical node target =>
    refine ht.modify node (fun n => { n with canonical := some target }) (fun _ => rfl)
      (fun _ => rfl) (fun _ => rfl) ?_ (fun _ _ hfile => Or.inl hfile)
    intro n link hlink
    rw [Tree.mem_links_iff] at hlink ⊢
    grind [IsSound]
  | setDefinition node target =>
    refine ht.modify node (fun n => { n with definition := some target }) (fun _ => rfl)
      (fun _ => rfl) (fun _ => rfl) ?_ (fun _ _ hfile => Or.inl hfile)
    intro n link hlink
    rw [Tree.mem_links_iff] at hlink ⊢
    grind [IsSound]
  | setEndLine node line =>
    exact ht.modify node (fun n => { n with endLine := line }) (fun _ => rfl) (fun _ => rfl)
      (fun _ => rfl) (fun _ _ hlink => Or.inl hlink) (fun _ _ hfile => Or.inl hfile)
  | markDefinition node =>
    exact ht.modify node (fun n => { n with isDefinition := true }) (fun _ => rfl) (fun _ => rfl)
      (fun _ => rfl) (fun _ _ hlink => Or.inl hlink) (fun _ _ hfile => Or.inl hfile)
  | setTokens node tokens =>
    exact ht.modify node (fun n => { n with tokens := tokens }) (fun _ => rfl) (fun _ => rfl)
      (fun _ => rfl) (fun _ _ hlink => Or.inl hlink) (fun _ _ hfile => Or.inl hfile)
  | addInclusion inclusion => exact ht.of_nodes_eq rfl rfl (Nat.le_refl _)
  | addDiagnostic diagnostic => exact ht.of_nodes_eq rfl rfl (Nat.le_refl _)

/-- Changes that only write down what the compiler said. -/
def isMessage : Edit → Bool
  | .addInclusion _ | .addDiagnostic _ => true
  | _ => false

theorem messages_apply (t : Tree) (edit : Edit) (h : edit.isMessage = false) :
    (edit.apply t).inclusions = t.inclusions ∧ (edit.apply t).diagnostics = t.diagnostics := by
  cases edit with
  | addInclusion inclusion => cases h
  | addDiagnostic diagnostic => cases h
  | addFile path isSystem =>
    simp only [apply, Tree.addFile]
    split <;> exact ⟨rfl, rfl⟩
  | _ => exact ⟨rfl, rfl⟩

theorem size_le_apply (t : Tree) (edit : Edit) : t.size ≤ (edit.apply t).size := by
  cases edit with
  | attach parent kind spelling =>
    exact Nat.le_trans (Nat.le_succ _) (Nat.le_of_eq (t.size_attach parent kind spelling).symm)
  | addLoose scope kind spelling =>
    exact Nat.le_trans (Nat.le_succ _) (Nat.le_of_eq (t.size_addLoose scope kind spelling).symm)
  | addFile path isSystem => exact Nat.le_of_eq (t.size_addFile path isSystem).symm
  | addInclusion inclusion => exact Nat.le_refl _
  | addDiagnostic diagnostic => exact Nat.le_refl _
  | _ => exact Nat.le_of_eq (t.size_modify _ _).symm

theorem isPrefix_files_apply (t : Tree) (edit : Edit) : t.files <+: (edit.apply t).files := by
  cases edit with
  | addFile path isSystem => exact t.isPrefix_files_addFile path isSystem
  | _ => exact List.prefix_refl _

end Edit

namespace Tree

/-- One sound change of the nodes or files leads from a tree to another. -/
def SoundStep (t t' : Tree) : Prop :=
  ∃ edit : Edit, edit.IsSound t ∧ edit.isMessage = false ∧ t' = edit.apply t

/-- Sound changes of the nodes or files lead from a tree to another. -/
def GrowsTo (t t' : Tree) : Prop := Relation.ReflTransGen SoundStep t t'

namespace GrowsTo

variable {t t' t'' : Tree}

theorem refl (t : Tree) : t.GrowsTo t := Relation.ReflTransGen.refl

theorem trans (h : t.GrowsTo t') (h' : t'.GrowsTo t'') :
    t.GrowsTo t'' := Relation.ReflTransGen.trans h h'

theorem step (edit : Edit) (h : edit.IsSound t) (hm : edit.isMessage = false) :
    t.GrowsTo (edit.apply t) := Relation.ReflTransGen.single ⟨edit, h, hm, rfl⟩

theorem sound (h : t.GrowsTo t') (ht : t.Sound) : t'.Sound := by
  induction h with
  | refl => exact ht
  | tail _ hstep ih =>
    obtain ⟨edit, hedit, -, rfl⟩ := hstep
    exact hedit.apply ih

theorem size_le (h : t.GrowsTo t') : t.size ≤ t'.size := by
  induction h with
  | refl => exact Nat.le_refl _
  | tail _ hstep ih =>
    obtain ⟨edit, -, -, rfl⟩ := hstep
    exact Nat.le_trans ih (edit.size_le_apply _)

/-- Files keep their place in the table. -/
theorem isPrefix_files (h : t.GrowsTo t') : t.files <+: t'.files := by
  induction h with
  | refl => exact List.prefix_refl _
  | tail _ hstep ih =>
    obtain ⟨edit, -, -, rfl⟩ := hstep
    exact ih.trans (edit.isPrefix_files_apply _)

theorem length_files_le (h : t.GrowsTo t') : t.files.length ≤ t'.files.length := h.isPrefix_files.length_le

theorem messages_eq (h : t.GrowsTo t') :
    t'.inclusions = t.inclusions ∧ t'.diagnostics = t.diagnostics := by
  induction h with
  | refl => exact ⟨rfl, rfl⟩
  | tail _ hstep ih =>
    obtain ⟨edit, -, hm, rfl⟩ := hstep
    obtain ⟨hi, hd⟩ := edit.messages_apply _ hm
    exact ⟨hi.trans ih.1, hd.trans ih.2⟩

/-- None of the changes is refused when they are tried one after the other. -/
theorem exists_edits (h : t.GrowsTo t') :
    ∃ edits : List Edit, edits.foldlM Edit.tryApply t = some t' := by
  induction h with
  | refl => exact ⟨[], rfl⟩
  | tail _ hstep ih =>
    obtain ⟨edit, hedit, -, rfl⟩ := hstep
    obtain ⟨edits, hrun⟩ := ih
    refine ⟨edits ++ [edit], ?_⟩
    simp [List.foldlM_append, hrun, Edit.tryApply, hedit.isAllowed]

/-- A pass over a list grows a tree if every step of it does, whatever the steps before it did. -/
theorem foldl {α : Type} (pass : Tree → α → Tree) (items : List α)
    (hstep : ∀ item ∈ items, ∀ t', t.GrowsTo t' → t'.GrowsTo (pass t' item)) :
    t.GrowsTo (items.foldl pass t) := by
  suffices h : ∀ t', t.GrowsTo t' → t.GrowsTo (items.foldl pass t') from h t (refl t)
  induction items with
  | nil => exact fun t' ht' => ht'
  | cons item rest ih =>
    intro t' ht'
    have hrest := ih fun later hlater => hstep later (List.mem_cons_of_mem _ hlater)
    exact hrest _ (ht'.trans (hstep item List.mem_cons_self t' ht'))

end GrowsTo

end Tree

end UnitFacts
