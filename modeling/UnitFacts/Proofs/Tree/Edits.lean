import UnitFacts.Proofs.Tree.Growth
import UnitFacts.Proofs.Tree.Shape

/-!
Runs of changes from a new tree. Whatever the changes link to, as long as each is made to a node that exists,
children lists and lexical parents mirror each other, names stay, new nodes come at the end of the table, and no
path is entered twice. If moreover all that is linked to exists at that moment and no cycle of semantic parents is
closed, the check accepts the tree.
-/

namespace UnitFacts

open Relation (TransGen ReflTransGen)

namespace Edit

/-- The nodes that a change links to. -/
def targets : Edit → List NodeId
  | .addLoose scope _ _ | .setSemanticParent _ scope => scope.toList
  | .setReferenced _ target | .setCanonical _ target | .setDefinition _ target => [target]
  | _ => []

/-- The file that a change puts a node in. -/
def file? : Edit → Option FileId
  | .place _ file _ _ => some file
  | _ => none

/-- After the change the chain of semantic parents leads from a node back to it. -/
def ClosesCycle (t : Tree) : Edit → Prop
  | .setSemanticParent node scope => TransGen (t.setSemanticParent node scope).Encloses node node
  | _ => False

/-- What a change links to exists, and the change closes no cycle. -/
structure LinksWell (t : Tree) (edit : Edit) : Prop where
  targets_lt : ∀ target ∈ edit.targets, target < t.size
  file_lt : ∀ file ∈ edit.file?, file < t.files.length
  no_cycle : ¬ edit.ClosesCycle t

/-- Each of the changes links well in the tree that it is made to. -/
def LinkWell : Tree → List Edit → Prop
  | _, [] => True
  | t, edit :: rest => edit.LinksWell t ∧ LinkWell (edit.apply t) rest

/-- The node that a change adds. -/
def newNode? (t : Tree) : Edit → Option Node
  | .attach parent kind spelling => some (t.attachedNode parent kind spelling)
  | .addLoose scope kind spelling => some { kind, spelling, semanticParent := scope }
  | _ => none

end Edit

namespace Tree

/-- A change keeps the names of the nodes there are, and the index that it tells for a new node is the next one. -/
structure KeepsNodes (t : Tree) (edit : Edit) (t' : Tree) : Prop where
  old : ∀ id < t.size, t'.kind? id = t.kind? id ∧ t'.spelling id = t.spelling id
  new : ∀ n, edit.newNode? t = some n → edit.added? t = some t.nextId ∧
    t.nextId = t.nodes.size ∧ t'.nodes.size = t.nodes.size + 1 ∧ t'.node? t.nextId = some n
  no_new : edit.newNode? t = none → edit.added? t = none ∧ t'.nodes.size = t.nodes.size

/-- The paths of the files are different, and the first file alone is the main file. -/
structure FilesApart (t : Tree) (mainFile : String) : Prop where
  paths_nodup : (t.files.map (·.path)).Nodup
  main_first : ∃ rest, t.files = ⟨mainFile, true, false⟩ :: rest ∧ ∀ file ∈ rest, file.isMain = false

/-- The tree that changes have led to from a new tree. -/
structure GrownBy (mainFile : String) (edits : List Edit) (t : Tree) : Prop where
  mem_children_iff : ∀ parent child, child ∈ t.children parent ↔ t.lexicalParent? child = some parent
  child_once : ∀ parent child, child ∈ t.children parent →
    (t.children parent).count child = 1 ∧ parent < child
  root_free : t.lexicalParent? t.root = none
  keeps : ∀ edit t', edit.tryApply t = some t' → t.KeepsNodes edit t'
  files : t.FilesApart mainFile
  check : Edit.LinkWell (Tree.start mainFile) edits → t.check = .ok ()

end Tree

namespace Edit

variable {t t' : Tree}

/-! ### One change -/

theorem tryApply_eq_some_iff (edit : Edit) :
    edit.tryApply t = some t' ↔ edit.isAllowed t = true ∧ t' = edit.apply t := by
  rw [tryApply]
  by_cases h : edit.isAllowed t <;> simp [h, eq_comm]

theorem subject_lt {edit : Edit} (h : edit.isAllowed t = true) {id : NodeId} (hid : edit.subject? = some id) :
    id < t.size := by
  simpa [isAllowed, hid] using h

theorem root_apply (t : Tree) (edit : Edit) : (edit.apply t).root = t.root := by
  cases edit with
  | addFile path isSystem => exact t.root_addFile path isSystem
  | _ => rfl

/-- A change that adds no node leaves the shape of all nodes alone. -/
theorem shape?_apply_of_newNode?_eq_none {edit : Edit} (hn : edit.newNode? t = none) (id : NodeId) :
    (edit.apply t).shape? id = t.shape? id := by
  cases edit with
  | attach parent kind spelling => cases hn
  | addLoose scope kind spelling => cases hn
  | addInclusion inclusion => rfl
  | addDiagnostic diagnostic => rfl
  | _ => simp [apply]

/-- A change does no more to the shape of an old node than to add children. -/
theorem shape?_apply_of_lt {edit : Edit} (h : edit.isAllowed t = true) {id : NodeId} (hid : id < t.size) :
    ∃ added, (edit.apply t).shape? id = (t.shape? id).map (·.adopt added) := by
  have hne : id ≠ t.size := Nat.ne_of_lt hid
  have hsame : t.shape? id = (t.shape? id).map (·.adopt []) := by simp
  cases edit with
  | attach parent kind spelling =>
    rw [apply, t.shape?_attach (subject_lt h rfl), if_neg hne]
    split
    · exact ⟨[t.size], rfl⟩
    · exact ⟨[], hsame⟩
  | addLoose scope kind spelling =>
    rw [apply, t.shape?_addLoose, if_neg hne]
    exact ⟨[], hsame⟩
  | _ => exact ⟨[], (shape?_apply_of_newNode?_eq_none rfl id).trans hsame⟩

theorem newNode?_eq_some {edit : Edit} (h : edit.isAllowed t = true) {n : Node} (hn : edit.newNode? t = some n) :
    (edit.apply t).size = t.size + 1 ∧ (edit.apply t).node? t.size = some n := by
  cases edit with
  | attach parent kind spelling =>
    cases hn
    rw [apply, t.node?_attach parent kind spelling (subject_lt h rfl), if_pos rfl]
    exact ⟨t.size_attach parent kind spelling, rfl⟩
  | addLoose scope kind spelling =>
    cases hn
    rw [apply, Tree.addLoose, Tree.node?_push, if_pos rfl]
    exact ⟨t.size_push _, rfl⟩
  | _ => cases hn

/-- A change tells an index if and only if it adds a node. -/
theorem added?_eq (t : Tree) (edit : Edit) : edit.added? t = (edit.newNode? t).map fun _ => t.nextId := by
  cases edit with
  | attach parent kind spelling => exact congrArg some (t.fst_attach parent kind spelling)
  | addLoose scope kind spelling => exact congrArg some (t.fst_addLoose scope kind spelling)
  | _ => rfl

theorem keepsNodes_apply {edit : Edit} (h : edit.isAllowed t = true) : t.KeepsNodes edit (edit.apply t) := by
  constructor
  · intro id hid
    obtain ⟨added, hshape⟩ := shape?_apply_of_lt h hid
    have hkind := congrArg (Option.map Shape.kind) hshape
    have hspelling := congrArg (Option.map Shape.spelling) hshape
    rw [Option.map_map] at hkind hspelling
    rw [Tree.kind?_eq_shape, Tree.kind?_eq_shape, Tree.spelling_eq_shape, Tree.spelling_eq_shape, hkind, hspelling]
    exact ⟨rfl, rfl⟩
  · intro n hn
    exact ⟨by rw [added?_eq, hn]; rfl, rfl, newNode?_eq_some h hn⟩
  · intro hn
    exact ⟨by rw [added?_eq, hn]; rfl, Tree.size_eq_of_shape?_eq (shape?_apply_of_newNode?_eq_none hn)⟩

theorem nested_apply (ht : t.Nested) {edit : Edit} (h : edit.isAllowed t = true) : (edit.apply t).Nested := by
  cases hn : edit.newNode? t with
  | none =>
    have hshape := shape?_apply_of_newNode?_eq_none hn
    apply ht.of_eq (edit.root_apply t) (edit.size_le_apply t)
    · intro k
      rw [Tree.children_eq_shape, Tree.children_eq_shape, hshape]
    · intro k
      rw [Tree.lexicalParent?_eq_shape, Tree.lexicalParent?_eq_shape, hshape]
  | some n =>
    cases edit with
    | attach parent kind spelling => exact ht.attach (subject_lt h rfl) kind spelling
    | addLoose scope kind spelling =>
      exact ht.of_eq rfl (size_le_apply t _) (t.children_addLoose scope kind spelling)
        (t.lexicalParent?_addLoose scope kind spelling)
    | _ => cases hn

theorem filesApart_apply {mainFile : String} (ht : t.FilesApart mainFile) (edit : Edit) :
    (edit.apply t).FilesApart mainFile := by
  cases edit with
  | addFile path isSystem =>
    rw [apply, Tree.addFile]
    split
    · exact ht
    · rename_i hnone
      have hnew : path ∉ t.files.map (·.path) := by
        intro hmem
        obtain ⟨file, hfile, hpath⟩ := List.mem_map.mp hmem
        have hother := List.findIdx?_eq_none_iff.mp hnone file hfile
        exact of_decide_eq_false hother hpath
      obtain ⟨rest, hfiles, hrest⟩ := ht.main_first
      constructor
      · rw [List.map_append, List.nodup_append]
        refine ⟨ht.paths_nodup, by simp, ?_⟩
        intro a ha b hb heq
        have hb' : b = path := by simpa using hb
        exact hnew (hb' ▸ heq ▸ ha)
      · refine ⟨rest ++ [⟨path, false, isSystem⟩], by rw [hfiles, List.cons_append], ?_⟩
        intro file hfile
        obtain hfile | hfile := List.mem_append.mp hfile
        · exact hrest file hfile
        · rw [List.mem_singleton.mp hfile]
  | _ => exact ⟨ht.paths_nodup, ht.main_first⟩

/-- A node that is around its new semantic parent would be closed into a cycle. -/
theorem not_isAround_of_not_closesCycle {node scope : NodeId} (hnode : node < t.size)
    (h : ¬ (Edit.setSemanticParent node (some scope)).ClosesCycle t) : ¬ t.IsAround node scope := by
  have hparent := t.semanticParent?_setSemanticParent hnode (some scope)
  intro haround
  apply h
  -- the chain from the new parent up to the node does not use the link that is replaced
  have hchain : ∀ inner, t.IsAround node inner →
      ReflTransGen (t.setSemanticParent node (some scope)).Encloses node inner := by
    intro inner hinner
    induction hinner with
    | refl => exact ReflTransGen.refl
    | @tail middle inner _ hstep ih =>
      by_cases hself : inner = node
      · exact hself ▸ ReflTransGen.refl
      · refine ih.tail ?_
        rw [Tree.Encloses, hparent, if_neg hself]
        exact hstep
  have hlast : (t.setSemanticParent node (some scope)).Encloses scope node := by
    rw [Tree.Encloses, hparent, if_pos rfl]
  exact TransGen.tail' (hchain scope haround) hlast

theorem LinksWell.isSound {edit : Edit} (h : edit.LinksWell t) (hallowed : edit.isAllowed t = true) :
    edit.IsSound t := by
  have hsubject : ∀ id, edit.subject? = some id → id < t.size := fun id => subject_lt hallowed
  cases edit with
  | attach parent kind spelling => exact hsubject parent rfl
  | addLoose scope kind spelling => exact fun s hs => h.targets_lt s (Option.mem_toList.mpr hs)
  | place node file line col => exact ⟨hsubject node rfl, h.file_lt file rfl⟩
  | setSemanticParent node scope =>
    refine ⟨hsubject node rfl, fun s hs => ⟨h.targets_lt s (Option.mem_toList.mpr hs), ?_⟩⟩
    cases hs
    exact not_isAround_of_not_closesCycle (hsubject node rfl) h.no_cycle
  | setReferenced node target => exact ⟨hsubject node rfl, h.targets_lt target List.mem_cons_self⟩
  | setCanonical node target => exact ⟨hsubject node rfl, h.targets_lt target List.mem_cons_self⟩
  | setDefinition node target => exact ⟨hsubject node rfl, h.targets_lt target List.mem_cons_self⟩
  | setEndLine node line => exact hsubject node rfl
  | markDefinition node => exact hsubject node rfl
  | setTokens node tokens => exact hsubject node rfl
  | addFile path isSystem => trivial
  | addInclusion inclusion => trivial
  | addDiagnostic diagnostic => trivial

/-! ### Runs -/

theorem run_cons_iff (edit : Edit) (rest : List Edit) :
    (edit :: rest).foldlM tryApply t = some t' ↔
      edit.isAllowed t = true ∧ rest.foldlM tryApply (edit.apply t) = some t' := by
  rw [List.foldlM_cons, tryApply]
  by_cases h : edit.isAllowed t <;> simp [h]

/-- What every change of a run keeps if it is allowed, the run keeps. -/
theorem run_keeps_of_mem {motive : Tree → Prop} {edits : List Edit}
    (hstep : ∀ edit ∈ edits, ∀ t : Tree, edit.isAllowed t = true → motive t → motive (edit.apply t))
    (hrun : edits.foldlM tryApply t = some t') (ht : motive t) : motive t' := by
  induction edits generalizing t with
  | nil => exact Option.some.inj hrun ▸ ht
  | cons edit rest ih =>
    obtain ⟨hallowed, hrest⟩ := (run_cons_iff edit rest).mp hrun
    obtain ⟨hedit, hsteps⟩ := List.forall_mem_cons.mp hstep
    exact ih hsteps hrest (hedit t hallowed ht)

theorem run_keeps {motive : Tree → Prop}
    (hstep : ∀ (t : Tree) (edit : Edit), edit.isAllowed t = true → motive t → motive (edit.apply t))
    {edits : List Edit} (hrun : edits.foldlM tryApply t = some t') (ht : motive t) : motive t' :=
  run_keeps_of_mem (fun edit _ t => hstep t edit) hrun ht

theorem sound_run {edits : List Edit} (hrun : edits.foldlM tryApply t = some t') (hlinks : LinkWell t edits)
    (ht : t.Sound) : t'.Sound := by
  induction edits generalizing t with
  | nil => exact Option.some.inj hrun ▸ ht
  | cons edit rest ih =>
    obtain ⟨hallowed, hrest⟩ := (run_cons_iff edit rest).mp hrun
    have hedit := hlinks.1.isSound hallowed
    exact ih hrest hlinks.2 (hedit.apply ht)

end Edit

namespace Tree

theorem filesApart_start (mainFile : String) : (Tree.start mainFile).FilesApart mainFile :=
  ⟨by simp [Tree.start], [], rfl, by simp⟩

/-- Every run of changes that are each made to an existing node leads to a tree that is grown by them. -/
theorem grownBy_of_run (mainFile : String) (edits : List Edit) (t : Tree)
    (hrun : edits.foldlM Edit.tryApply (Tree.start mainFile) = some t) : GrownBy mainFile edits t := by
  have hnested : t.Nested := Edit.run_keeps (fun _ _ h ht => Edit.nested_apply ht h) hrun (Nested.start mainFile)
  have hfiles : t.FilesApart mainFile :=
    Edit.run_keeps (motive := fun t => t.FilesApart mainFile)
      (fun _ edit _ ht => Edit.filesApart_apply ht edit) hrun (filesApart_start mainFile)
  constructor
  · exact hnested.mem_children_iff
  · intro parent child hchild
    have hlt := hnested.parent_lt child parent ((hnested.mem_children_iff parent child).mp hchild)
    exact ⟨List.count_eq_one_of_mem (hnested.children_nodup parent) hchild, hlt⟩
  · exact hnested.lexicalParent?_root
  · intro edit t' hedit
    obtain ⟨hallowed, rfl⟩ := (Edit.tryApply_eq_some_iff edit).mp hedit
    exact Edit.keepsNodes_apply hallowed
  · exact hfiles
  · intro hlinks
    have hsound := Edit.sound_run hrun hlinks (Sound.start mainFile)
    exact (check_eq_ok_iff t).mpr hsound.wellFormed

/-- A namespace `b` in a namespace `a` is moved out of it, and a function that stands nowhere refers to it. -/
def movingEdits : List Edit :=
  [.attach 0 .namespaceDecl "a", .attach 1 .namespaceDecl "b", .addFile "a.h" false, .addFile "a.h" true,
   .place 2 1 3 4, .setSemanticParent 2 (some 0), .addLoose (some 2) .functionDecl "f", .setReferenced 3 2]

def movedTree : Tree where
  files := [⟨"main.cpp", true, false⟩, ⟨"a.h", false, false⟩]
  root := 0
  nodes := #[
    { kind := .unit, spelling := "main.cpp", children := [1] },
    { kind := .namespaceDecl, spelling := "a", lexicalParent := some 0, semanticParent := some 0,
      children := [2] },
    { kind := .namespaceDecl, spelling := "b", position := some ⟨1, 3, 4⟩, lexicalParent := some 1,
      semanticParent := some 0 },
    { kind := .functionDecl, spelling := "f", semanticParent := some 2, referenced := some 2 }]

theorem linkWell_movingEdits : Edit.LinkWell (Tree.start "main.cpp") movingEdits := by
  have hends : ∀ t : Tree, t.check = .ok () → ∀ id, ¬ TransGen t.Encloses id id := by
    intro t h
    have ht := (check_eq_ok_iff t).mp h
    exact (t.scoped_of_links ht.links_lt ht.scopes_end).not_transGen_self
  refine ⟨⟨by decide, by decide, id⟩, ⟨by decide, by decide, id⟩, ⟨by decide, by decide, id⟩,
    ⟨by decide, by decide, id⟩, ⟨by decide, by decide, id⟩, ⟨by decide, by decide, hends _ (by decide) 2⟩,
    ⟨by decide, by decide, id⟩, ⟨by decide, by decide, id⟩, trivial⟩

theorem grownBy_of_run_movingEdits :
    movingEdits.foldlM Edit.tryApply (Tree.start "main.cpp") = some movedTree ∧
      Edit.LinkWell (Tree.start "main.cpp") movingEdits ∧ movedTree.check = .ok () ∧
      GrownBy "main.cpp" movingEdits movedTree :=
  ⟨by decide, linkWell_movingEdits,
    (grownBy_of_run "main.cpp" movingEdits movedTree (by decide)).check linkWell_movingEdits,
    grownBy_of_run "main.cpp" movingEdits movedTree (by decide)⟩

end Tree

end UnitFacts
