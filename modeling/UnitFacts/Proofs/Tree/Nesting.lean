import UnitFacts.Proofs.Tree.Edits

/-!
Scopes that follow from where nodes stand. As long as no semantic parent is set by hand and no loose node is added,
the semantic parent of every node but the root is the first declaration or lambda on its way up through the lexical
parents, however far up that is. A change looks at one node only: it gives a new node the scope of the inside of its
parent. That this is the first scope of the whole way is then read off the chain of lexical parents.
-/

namespace UnitFacts

open Relation (TransGen ReflTransGen)

/-- Changes that leave the scopes to where nodes stand. -/
def Edit.leavesScopes : Edit → Bool
  | .setSemanticParent .. | .addLoose .. => false
  | _ => true

namespace Tree

/-- `outer` is the lexical parent of `inner`. -/
def ParentOf (t : Tree) (outer inner : NodeId) : Prop := t.lexicalParent? inner = some outer

/-- A declaration or a lambda. -/
def IsScopeNode (t : Tree) (id : NodeId) : Prop :=
  ∃ kind, t.kind? id = some kind ∧ (kind.isDeclaration = true ∨ kind = .lambdaExpr)

/-- `scope` stands above a node and is a declaration or a lambda, and every other one above the node stands above
`scope` too. -/
structure IsNearestScope (t : Tree) (scope id : NodeId) : Prop where
  above : TransGen t.ParentOf scope id
  isScopeNode : t.IsScopeNode scope
  nearest : ∀ other, TransGen t.ParentOf other id → t.IsScopeNode other → ReflTransGen t.ParentOf other scope

/-- Every node but the root has a nearest scope, and that is its semantic parent. -/
def ScopedByNesting (t : Tree) : Prop :=
  ∀ id < t.size, id ≠ t.root →
    (∃ scope, t.IsNearestScope scope id) ∧
      ∀ scope, t.semanticParent? id = some scope ↔ t.IsNearestScope scope id

variable {t t' : Tree}

/-! ### The nearest scope -/

theorem kindIn_isScope_iff (t : Tree) (id : NodeId) : t.kindIn NodeKind.isScope id = true ↔ t.IsScopeNode id := by
  simp only [kindIn, Option.any_eq_true, NodeKind.isScope, Bool.or_eq_true, decide_eq_true_eq, IsScopeNode]

/-- What is above a node is above its lexical parent or is that parent. -/
theorem ParentOf.above_iff {parent id : NodeId} (h : t.ParentOf parent id) (other : NodeId) :
    TransGen t.ParentOf other id ↔ ReflTransGen t.ParentOf other parent := by
  rw [TransGen.tail'_iff]
  constructor
  · rintro ⟨middle, hother, hmiddle⟩
    rwa [← Option.some.inj (hmiddle.symm.trans h)]
  · exact fun hother => ⟨parent, hother, h⟩

theorem IsNearestScope.of_isScopeNode {parent id : NodeId} (h : t.ParentOf parent id) (hscope : t.IsScopeNode parent) :
    t.IsNearestScope parent id where
  above := TransGen.single h
  isScopeNode := hscope
  nearest other hother _ := (h.above_iff other).mp hother

/-- The nearest scope of a node that is no scope is that of the nodes directly inside it. -/
theorem IsNearestScope.inside {scope parent id : NodeId} (hnear : t.IsNearestScope scope parent)
    (h : t.ParentOf parent id)
    (hparent : ¬ t.IsScopeNode parent) : t.IsNearestScope scope id where
  above := hnear.above.tail h
  isScopeNode := hnear.isScopeNode
  nearest other hother hscope := by
    rcases Relation.reflTransGen_iff_eq_or_transGen.mp ((h.above_iff other).mp hother) with rfl | habove
    · exact absurd hscope hparent
    · exact hnear.nearest other habove hscope

theorem Nested.le_of_reflTransGen (ht : t.Nested) {outer inner : NodeId} (h : ReflTransGen t.ParentOf outer inner) :
    outer ≤ inner := by
  induction h with
  | refl => exact Nat.le_refl _
  | @tail middle inner _ hstep ih => exact Nat.le_trans ih (Nat.le_of_lt (ht.parent_lt inner middle hstep))

theorem IsNearestScope.unique (ht : t.Nested) {first second id : NodeId} (hfirst : t.IsNearestScope first id)
    (hsecond : t.IsNearestScope second id) : first = second :=
  Nat.le_antisymm (ht.le_of_reflTransGen (hsecond.nearest first hfirst.above hfirst.isScopeNode))
    (ht.le_of_reflTransGen (hfirst.nearest second hsecond.above hsecond.isScopeNode))

/-! ### What every change keeps -/

/-- Every node but the root stands below another one, and its semantic parent is the scope of the inside of that one. -/
structure ScopesFollow (t : Tree) : Prop where
  nested : t.Nested
  root_kind : t.kind? t.root = some .unit
  exists_parent : ∀ id < t.size, id ≠ t.root → ∃ parent, t.ParentOf parent id
  scope_eq : ∀ parent id, t.ParentOf parent id → t.semanticParent? id = t.scopeFor? parent

theorem scopeFor?_congr {id : NodeId} (hkind : t'.kind? id = t.kind? id)
    (hscope : t'.semanticParent? id = t.semanticParent? id) : t'.scopeFor? id = t.scopeFor? id := by
  rw [scopeFor?, scopeFor?, kindIn, kindIn, hkind, hscope]

theorem scopesFollow_start (mainFile : String) : (Tree.start mainFile).ScopesFollow where
  nested := Nested.start mainFile
  root_kind := rfl
  exists_parent id hid hne := absurd (Nat.lt_one_iff.mp hid) hne
  scope_eq parent id h := by
    have hparent := (Nested.start mainFile).parent_lt id parent h
    have hid : id < 1 := Nested.lt_size h
    lia

/-- Old nodes keep what is said of them, and new ones stand below old ones with the scope of their inside. -/
theorem ScopesFollow.grow (ht : t.ScopesFollow) (hnested : t'.Nested) (hroot : t'.root = t.root)
    (hkind : ∀ id < t.size, t'.kind? id = t.kind? id)
    (hparent : ∀ id < t.size, t'.lexicalParent? id = t.lexicalParent? id)
    (hscope : ∀ id < t.size, t'.semanticParent? id = t.semanticParent? id)
    (hnew : ∀ id < t'.size, t.size ≤ id →
      ∃ parent < t.size, t'.ParentOf parent id ∧ t'.semanticParent? id = t.scopeFor? parent) : t'.ScopesFollow where
  nested := hnested
  root_kind := by
    have hlt : t.root < t.size := ht.nested.root_eq ▸ ht.nested.size_pos
    rw [hroot, hkind _ hlt, ht.root_kind]
  exists_parent id hid hne := by
    by_cases hold : id < t.size
    · obtain ⟨parent, h⟩ := ht.exists_parent id hold (hroot ▸ hne)
      exact ⟨parent, (hparent id hold).trans h⟩
    · obtain ⟨parent, -, h, -⟩ := hnew id hid (Nat.le_of_not_lt hold)
      exact ⟨parent, h⟩
  scope_eq parent id h := by
    have hinside : ∀ parent < t.size, t'.scopeFor? parent = t.scopeFor? parent :=
      fun parent hlt => scopeFor?_congr (hkind parent hlt) (hscope parent hlt)
    by_cases hold : id < t.size
    · have h' : t.ParentOf parent id := (hparent id hold).symm.trans h
      have hlt := Nat.lt_trans (ht.nested.parent_lt id parent h') hold
      rw [hscope id hold, ht.scope_eq parent id h', hinside parent hlt]
    · obtain ⟨parent', hlt, h', heq⟩ := hnew id (Nested.lt_size h) (Nat.le_of_not_lt hold)
      obtain rfl : parent' = parent := Option.some.inj (h'.symm.trans h)
      rw [heq, hinside parent' hlt]

end Tree

namespace Edit

open UnitFacts.Tree

variable {t t' : Tree}

theorem lexicalParent?_apply_of_lt {edit : Edit} (h : edit.isAllowed t = true) {id : NodeId} (hid : id < t.size) :
    (edit.apply t).lexicalParent? id = t.lexicalParent? id := by
  obtain ⟨added, hshape⟩ := shape?_apply_of_lt h hid
  have hparent := congrArg (fun s => Option.bind s Shape.parent) hshape
  rw [Option.bind_map] at hparent
  rw [lexicalParent?_eq_shape, lexicalParent?_eq_shape]
  exact hparent

theorem semanticParent?_apply_of_lt {edit : Edit} (h : edit.isAllowed t = true) (hleaves : edit.leavesScopes = true)
    {id : NodeId} (hid : id < t.size) : (edit.apply t).semanticParent? id = t.semanticParent? id := by
  cases edit with
  | setSemanticParent node scope => cases hleaves
  | addLoose scope kind spelling => cases hleaves
  | attach parent kind spelling =>
    rw [apply, t.semanticParent?_attach parent kind spelling (subject_lt h rfl), if_neg (Nat.ne_of_lt hid)]
  | addFile path isSystem => rw [apply, semanticParent?, t.node?_addFile, semanticParent?]
  | addInclusion inclusion => rfl
  | addDiagnostic diagnostic => rfl
  | _ =>
    refine t.semanticParent?_modify _ _ ?_ id
    intro n
    rfl

/-- A node that such a change adds stands below a node and has the scope of its inside. -/
theorem new_apply {edit : Edit} (h : edit.isAllowed t = true) (hleaves : edit.leavesScopes = true) {id : NodeId}
    (hid : id < (edit.apply t).size) (hnew : t.size ≤ id) :
    ∃ parent < t.size,
      (edit.apply t).ParentOf parent id ∧ (edit.apply t).semanticParent? id = t.scopeFor? parent := by
  cases hn : edit.newNode? t with
  | none =>
    have hsize := size_eq_of_shape?_eq (shape?_apply_of_newNode?_eq_none hn)
    exact absurd hnew (Nat.not_le_of_lt (hsize ▸ hid))
  | some n =>
    cases edit with
    | attach parent kind spelling =>
      have hp : parent < t.size := subject_lt h rfl
      rw [apply, t.size_attach] at hid
      obtain rfl : id = t.size := Nat.le_antisymm (Nat.le_of_lt_succ hid) hnew
      refine ⟨parent, hp, ?_, ?_⟩
      · rw [ParentOf, apply, t.lexicalParent?_attach parent kind spelling hp, if_pos rfl]
      · rw [apply, t.semanticParent?_attach parent kind spelling hp, if_pos rfl]
    | addLoose scope kind spelling => cases hleaves
    | _ => cases hn

theorem scopesFollow_apply {edit : Edit} (h : edit.isAllowed t = true) (hleaves : edit.leavesScopes = true)
    (ht : t.ScopesFollow) : (edit.apply t).ScopesFollow :=
  ht.grow (nested_apply ht.nested h) (root_apply t edit) (fun id hid => ((keepsNodes_apply h).old id hid).1)
    (fun _ => lexicalParent?_apply_of_lt h) (fun _ => semanticParent?_apply_of_lt h hleaves)
    (fun _ => new_apply h hleaves)

end Edit

namespace Tree

variable {t : Tree}

/-- The way up ends at the unit, which is a scope, so some scope is found on it. -/
theorem ScopesFollow.exists_nearestScope (ht : t.ScopesFollow) (id : NodeId) (hid : id < t.size) (hne : id ≠ t.root) :
    ∃ scope, t.semanticParent? id = some scope ∧ t.IsNearestScope scope id := by
  -- parents are older than children, so the induction goes up the chain of lexical parents
  induction id using Nat.strong_induction_on with
  | _ id ih =>
    obtain ⟨parent, hparent⟩ := ht.exists_parent id hid hne
    have hlt := ht.nested.parent_lt id parent hparent
    rw [ht.scope_eq parent id hparent, scopeFor?]
    by_cases hscope : t.IsScopeNode parent
    · rw [if_pos ((t.kindIn_isScope_iff parent).mpr hscope)]
      exact ⟨parent, rfl, .of_isScopeNode hparent hscope⟩
    · rw [if_neg (mt (t.kindIn_isScope_iff parent).mp hscope)]
      have hroot : parent ≠ t.root := by
        rintro rfl
        exact hscope ⟨.unit, ht.root_kind, Or.inl rfl⟩
      obtain ⟨scope, heq, hnear⟩ := ih parent hlt (Nat.lt_trans hlt hid) hroot
      exact ⟨scope, heq, hnear.inside hparent hscope⟩

theorem ScopesFollow.scopedByNesting (ht : t.ScopesFollow) : t.ScopedByNesting := by
  intro id hid hne
  obtain ⟨scope, heq, hnear⟩ := ht.exists_nearestScope id hid hne
  refine ⟨⟨scope, hnear⟩, fun other => ?_⟩
  rw [heq, Option.some_inj]
  constructor
  · rintro rfl
    exact hnear
  · exact hnear.unique ht.nested

/-- At every moment of a run that sets no semantic parent and adds no loose node, every node but the root has a nearest
scope, and that is its semantic parent. -/
theorem scopedByNesting_of_run (mainFile : String) (edits : List Edit) (t : Tree)
    (hrun : edits.foldlM Edit.tryApply (Tree.start mainFile) = some t)
    (hleaves : ∀ edit ∈ edits, edit.leavesScopes = true) (before : List Edit) (hbefore : before <+: edits) :
    ∃ t', before.foldlM Edit.tryApply (Tree.start mainFile) = some t' ∧ t'.ScopedByNesting := by
  obtain ⟨after, rfl⟩ := hbefore
  rw [List.foldlM_append] at hrun
  obtain ⟨t', hrun', -⟩ := Option.bind_eq_some_iff.mp hrun
  have hfollow : t'.ScopesFollow := by
    refine Edit.run_keeps_of_mem (fun edit hedit t hallowed => ?_) hrun' (scopesFollow_start mainFile)
    exact Edit.scopesFollow_apply hallowed (hleaves edit (List.mem_append_left _ hedit))
  exact ⟨t', hrun', hfollow.scopedByNesting⟩

/-- A function with a variable whose initializer is a lambda that uses it; the statement behind is added before the body
of the lambda. -/
def lambdaEdits : List Edit :=
  [.attach 0 .functionDecl "run", .attach 1 .compoundStmt "", .addFile "a.h" false, .attach 2 .declStmt "",
   .attach 3 .varDecl "count", .place 4 0 2 7, .attach 4 .lambdaExpr "", .attach 2 .returnStmt "",
   .attach 5 .compoundStmt "", .attach 7 .declRefExpr "count", .setReferenced 8 4]

def lambdaTree : Tree where
  files := [⟨"main.cpp", true, false⟩, ⟨"a.h", false, false⟩]
  root := 0
  nodes := #[
    { kind := .unit, spelling := "main.cpp", children := [1] },
    { kind := .functionDecl, spelling := "run", lexicalParent := some 0, semanticParent := some 0, children := [2] },
    { kind := .compoundStmt, lexicalParent := some 1, semanticParent := some 1, children := [3, 6] },
    { kind := .declStmt, lexicalParent := some 2, semanticParent := some 1, children := [4] },
    { kind := .varDecl, spelling := "count", position := some ⟨0, 2, 7⟩, lexicalParent := some 3,
      semanticParent := some 1, children := [5] },
    { kind := .lambdaExpr, lexicalParent := some 4, semanticParent := some 4, children := [7] },
    { kind := .returnStmt, lexicalParent := some 2, semanticParent := some 1 },
    { kind := .compoundStmt, lexicalParent := some 5, semanticParent := some 5, children := [8] },
    { kind := .declRefExpr, spelling := "count", lexicalParent := some 7, semanticParent := some 5,
      referenced := some 4 }]

theorem scopedByNesting_of_run_lambdaEdits :
    lambdaEdits.foldlM Edit.tryApply (Tree.start "main.cpp") = some lambdaTree ∧
      (∀ edit ∈ lambdaEdits, edit.leavesScopes = true) ∧ lambdaTree.ScopedByNesting ∧
      lambdaTree.IsNearestScope 4 5 ∧ lambdaTree.IsNearestScope 5 8 ∧ lambdaTree.IsNearestScope 1 6 := by
  have hrun : lambdaEdits.foldlM Edit.tryApply (Tree.start "main.cpp") = some lambdaTree := by decide
  have hleaves : ∀ edit ∈ lambdaEdits, edit.leavesScopes = true := by decide
  obtain ⟨t, ht, hscoped⟩ :=
    scopedByNesting_of_run "main.cpp" lambdaEdits lambdaTree hrun hleaves lambdaEdits List.prefix_rfl
  obtain rfl : lambdaTree = t := Option.some.inj (hrun.symm.trans ht)
  have hnear : ∀ id scope, id < 9 ∧ id ≠ 0 ∧ lambdaTree.semanticParent? id = some scope →
      lambdaTree.IsNearestScope scope id :=
    fun id scope h => ((hscoped id h.1 h.2.1).2 scope).mp h.2.2
  exact ⟨hrun, hleaves, hscoped, hnear 5 4 (by decide), hnear 8 5 (by decide), hnear 6 1 (by decide)⟩

end Tree

end UnitFacts
