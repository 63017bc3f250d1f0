import UnitFacts.Proofs.Dump.Grouping
import UnitFacts.Proofs.Dump.Growth

/-!
The passes that resolve links make sound changes, so that the tree of every dumped unit is well
formed: whatever the document repeats, leaves out or links in circles, the check accepts the tree,
and no change on the way to it is refused.
-/

namespace UnitFacts

open UnitFacts.Tree

namespace Dump

theorem Draft.lookup?_lt {d : Draft} (hd : d.Bounded) {name : String} {id : NodeId}
    (h : d.lookup? name = some id) : id < d.tree.size := hd.ids _ (mem_of_lookup_eq_some h)

theorem Draft.chain_lt {d : Draft} (hd : d.Bounded) :
    ∀ link ∈ d.chain, link.1 < d.tree.size ∧ link.2 < d.tree.size := by
  intro link hlink
  obtain ⟨⟨node, name⟩, hprevious, h⟩ := List.mem_filterMap.mp hlink
  cases htarget : d.lookup? name with
  | none => simp [htarget] at h
  | some target =>
    simp only [htarget, Option.ite_none_left_eq_some, Option.some.injEq] at h
    obtain ⟨-, rfl⟩ := h
    exact ⟨hd.previous _ hprevious, Draft.lookup?_lt hd htarget⟩

/-- Whatever the orders, the groups of a draft hold nodes that were read. -/
theorem Draft.within_groups {d : Draft} (hd : d.Bounded) (order : TableOrder) :
    Within d.tree.size (d.groups order) := by
  have hchain := Draft.chain_lt hd
  intro group hgroup
  refine Chain.within_grouping hchain (fun id hid => ?_) group ((order.groups_perm _).mem_iff.mp hgroup)
  exact Chain.redeclared_lt hchain ((order.nodes_perm _).mem_iff.mp hid)

/-! ### What the passes leave alone -/

section Views

variable {β : Type} (view : Tree → β) (d : Draft) (t : Tree)

/-- What does not see semantic parents does not see scopes that are named by id. -/
theorem view_linkScopes (h : ∀ t id scope, view (setSemanticParent t id scope) = view t) :
    view (linkScopes d t) = view t := by
  refine view_foldl view (fun t link => ?_) _ t
  unfold linkScope
  split
  · split
    · rfl
    · exact h ..
  · rfl

/-- What sees neither canonical declarations nor definitions does not see redeclarations. -/
theorem view_linkGroups (hcanonical : ∀ t id target, view (setCanonical t id target) = view t)
    (hdefinition : ∀ t id target, view (setDefinition t id target) = view t)
    (groups : List (NodeId × List NodeId)) : view (linkGroups t groups) = view t := by
  refine view_foldl view (fun t group => view_foldl view (fun t member => ?_) _ t) _ t
  unfold linkMember
  split
  · exact (hdefinition ..).trans (hcanonical ..)
  · exact hcanonical ..

theorem view_linkReferences (h : ∀ t id target, view (setReferenced t id target) = view t) :
    view (linkReferences d t) = view t := by
  refine view_foldl view (fun t link => ?_) _ t
  unfold linkReference
  split
  · exact h ..
  · rfl

theorem view_linkConstructs (h : ∀ t id target, view (setReferenced t id target) = view t) :
    view (linkConstructs d t) = view t := by
  refine view_foldl view (fun t construct => ?_) _ t
  unfold linkConstruct
  split
  · exact h ..
  · rfl

end Views

/-! ### What the passes change -/

section Passes

variable {mainFile : String} {d : Draft} (hd : d.Sound mainFile) {t : Tree} (ht : d.tree.GrowsTo t)
include hd ht

/-- A scope is taken over only where the node is not around it, so no cycle is closed. -/
theorem growsTo_linkScopes : t.GrowsTo (linkScopes d t) := by
  apply GrowsTo.foldl
  intro link hlink t' ht'
  have hle : d.tree.size ≤ t'.size := (ht.trans ht').size_le
  have hsound : t'.Sound := (ht.trans ht').sound hd.tree_sound
  unfold linkScope
  split
  · rename_i scope hscope
    have hs : scope < t'.size := Nat.lt_of_lt_of_le (Draft.lookup?_lt hd.bounded hscope) hle
    split
    · exact GrowsTo.refl _
    · rename_i hnot
      refine GrowsTo.step (.setSemanticParent link.1 (some scope)) ⟨?_, ?_⟩ rfl
      · exact Nat.lt_of_lt_of_le (hd.bounded.contexts link (List.mem_reverse.mp hlink)) hle
      · intro s h
        obtain rfl := Option.some.inj h
        exact ⟨hs, fun haround => hnot ((hsound.isScoped.mem_scopeChain_iff hs).mpr haround)⟩
  · exact GrowsTo.refl _

omit hd in
theorem growsTo_linkGroups {groups : List (NodeId × List NodeId)} (hgroups : Within d.tree.size groups) :
    t.GrowsTo (linkGroups t groups) := by
  apply GrowsTo.foldl
  intro group hgroup t' ht'
  obtain ⟨hfirst, hmembers⟩ := hgroups group hgroup
  apply GrowsTo.foldl
  intro member hmember t'' ht''
  have hle : d.tree.size ≤ t''.size := (ht.trans (ht'.trans ht'')).size_le
  have hm : member < t''.size := Nat.lt_of_lt_of_le (hmembers member hmember) hle
  have hcanonical := GrowsTo.step (.setCanonical member group.1) ⟨hm, Nat.lt_of_lt_of_le hfirst hle⟩ rfl
  unfold linkMember
  cases hdef : group.2.find? t'.isDefinition with
  | none => exact hcanonical
  | some definition =>
    have hin := hmembers definition (List.mem_of_find?_eq_some hdef)
    refine hcanonical.trans (GrowsTo.step (.setDefinition member definition) ⟨?_, ?_⟩ rfl)
    · exact Nat.lt_of_lt_of_le hm hcanonical.size_le
    · exact Nat.lt_of_lt_of_le hin (Nat.le_trans hle hcanonical.size_le)

theorem growsTo_linkRedeclarations (order : TableOrder) : t.GrowsTo (linkRedeclarations order d t) :=
  growsTo_linkGroups ht (Draft.within_groups hd.bounded order)

theorem growsTo_linkReferences : t.GrowsTo (linkReferences d t) := by
  apply GrowsTo.foldl
  intro link hlink t' ht'
  have hle : d.tree.size ≤ t'.size := (ht.trans ht').size_le
  unfold linkReference
  split
  · rename_i target htarget
    refine GrowsTo.step (.setReferenced link.1 target) ⟨?_, ?_⟩ rfl
    · exact Nat.lt_of_lt_of_le (hd.bounded.references link (List.mem_reverse.mp hlink)) hle
    · exact Nat.lt_of_lt_of_le (Draft.lookup?_lt hd.bounded htarget) hle
  · exact GrowsTo.refl _

theorem growsTo_linkConstructs : t.GrowsTo (linkConstructs d t) := by
  apply GrowsTo.foldl
  intro construct hconstruct t' ht'
  have hle : d.tree.size ≤ t'.size := (ht.trans ht').size_le
  unfold linkConstruct
  split
  · rename_i ctor hctor
    obtain ⟨record, -, hfound⟩ := List.exists_of_findSome?_eq_some hctor
    obtain ⟨entry, hentry, rfl⟩ := Option.map_eq_some_iff.mp hfound
    have hmem := List.mem_reverse.mp (List.mem_of_find?_eq_some hentry)
    refine GrowsTo.step (.setReferenced construct.node entry.1) ⟨?_, ?_⟩ rfl
    · exact Nat.lt_of_lt_of_le (hd.bounded.constructs construct (List.mem_reverse.mp hconstruct)) hle
    · exact Nat.lt_of_lt_of_le (hd.bounded.ctorTypes entry hmem) hle
  · exact GrowsTo.refl _

omit hd ht in
theorem mem_typeTable_lt {entry : String × NodeId} (h : entry ∈ typeTable t) :
    entry.2 < t.size := by
  obtain ⟨id, hid, rfl⟩ := List.mem_map.mp (mem_of_mem_firstByKey _ _ _ h)
  exact List.mem_range.mp (List.mem_of_mem_filter hid)

omit hd ht in
theorem resolveType?_mem {types : List (String × NodeId)} {name : String} {target : NodeId}
    (h : resolveType? types name = some target) : ∃ entry ∈ types, entry.2 = target := by
  unfold resolveType? at h
  split at h
  · rename_i id hlookup
    exact ⟨_, mem_of_lookup_eq_some hlookup, Option.some.inj h⟩
  · split at h
    · rename_i qualified id hfilter
      have hmem : (qualified, id) ∈ types := List.mem_of_mem_filter (hfilter ▸ List.mem_singleton_self _)
      exact ⟨_, hmem, Option.some.inj h⟩
    · cases h

omit hd ht in
/-- A use of a mention is on a token of its stretch of source and refers to what a name stands for. -/
theorem of_mem_mentionUses {ctx : Context} {types : List (String × NodeId)} {m : Mention} {use : TypeUse}
    (h : use ∈ mentionUses ctx types m) :
    use.owner = m.owner ∧ use.token ∈ ctx.sources.spans m.file m.start m.stop ∧
      use.file = m.file ∧ ∃ name ∈ m.names, shortName name = use.token.text ∧
        resolveType? types name = some use.target := by
  obtain ⟨name, hmem, hname⟩ := List.mem_flatMap.mp h
  cases htarget : resolveType? types name with
  | none => simp [htarget] at hname
  | some target =>
    simp only [htarget] at hname
    obtain ⟨token, htoken, rfl⟩ := List.mem_map.mp hname
    obtain ⟨hspan, htext⟩ := List.mem_filter.mp htoken
    exact ⟨rfl, hspan, rfl, name, hmem, (of_decide_eq_true htext).symm, htarget⟩

omit hd ht in
/-- A type reference belongs to a noted declaration and refers to a declaration of the table. -/
theorem mem_typeUses (ctx : Context) {use : TypeUse} (h : use ∈ typeUses ctx d t) :
    (∃ mention ∈ d.mentions, mention.owner = use.owner) ∧ use.target < t.size := by
  obtain ⟨mention, hmention, huse⟩ := List.mem_flatMap.mp (mem_of_mem_firstByKey _ _ _ h)
  obtain ⟨howner, -, -, name, -, -, hname⟩ := of_mem_mentionUses huse
  obtain ⟨entry, hentry, htarget⟩ := resolveType?_mem hname
  exact ⟨⟨mention, List.mem_reverse.mp hmention, howner.symm⟩, htarget ▸ mem_typeTable_lt hentry⟩

omit hd ht in
theorem addTypeUse_eq (ctx : Context) (use : TypeUse) :
    addTypeUse ctx t use =
      (placeAt ctx (t.attach use.owner .typeRef (t.spelling use.target)).2 t.nextId use.file
        (UInt32.ofNat use.token.line) (UInt32.ofNat use.token.col)).setReferenced t.nextId use.target := by
  rw [addTypeUse, ← t.fst_attach use.owner .typeRef (t.spelling use.target)]

theorem growsTo_addTypeUses (ctx : Context) : t.GrowsTo (addTypeUses ctx d t) := by
  apply GrowsTo.foldl
  intro use huse t' ht'
  obtain ⟨⟨mention, hmention, hsame⟩, htarget⟩ := mem_typeUses ctx huse
  have howner : use.owner < d.tree.size := hsame ▸ hd.bounded.mentions mention hmention
  have hle : d.tree.size ≤ t'.size := (ht.trans ht').size_le
  have hfiles : 0 < t'.files.length := Nat.lt_of_lt_of_le hd.files_pos (ht.trans ht').length_files_le
  have hattach := GrowsTo.step (.attach use.owner .typeRef (t'.spelling use.target))
    (Nat.lt_of_lt_of_le howner hle : use.owner < t'.size) rfl
  have hid : t'.nextId < (t'.attach use.owner .typeRef (t'.spelling use.target)).2.size := by
    rw [size_attach]
    exact Nat.lt_succ_self _
  have hplace := growsTo_placeAt ctx (hattach.length_files_le.trans_lt' hfiles) hid use.file
    (UInt32.ofNat use.token.line) (UInt32.ofNat use.token.col)
  rw [addTypeUse_eq]
  refine (hattach.trans hplace).trans (GrowsTo.step (.setReferenced t'.nextId use.target) ⟨?_, ?_⟩ rfl)
  · exact Nat.lt_of_lt_of_le hid hplace.size_le
  · exact Nat.lt_of_lt_of_le htarget (ht'.trans (hattach.trans hplace)).size_le

end Passes

theorem growsTo_linked (ctx : Context) {mainFile : String} {d : Draft} (hd : d.Sound mainFile) :
    d.tree.GrowsTo (d.linked ctx) := by
  have hscopes := growsTo_linkScopes hd (GrowsTo.refl d.tree)
  have hredecls := hscopes.trans (growsTo_linkRedeclarations hd hscopes ctx.order)
  have hrefs := hredecls.trans (growsTo_linkReferences hd hredecls)
  have hctors := hrefs.trans (growsTo_linkConstructs hd hrefs)
  exact hctors.trans (growsTo_addTypeUses hd hctors ctx)

theorem growsTo_linked_buildRoot (ctx : Context) (root : Node) :
    (Tree.start ctx.mainFile).GrowsTo ((buildRoot ctx root).linked ctx) :=
  (sound_buildRoot ctx root).grown.trans (growsTo_linked ctx (sound_buildRoot ctx root))

theorem sound_treeOf (ctx : Context) (messages : Messages) (root : Node) :
    (treeOf ctx messages root).Sound :=
  ((growsTo_linked_buildRoot ctx root).sound (Tree.Sound.start ctx.mainFile)).of_nodes_eq rfl rfl
    (Nat.le_refl _)

end Dump

namespace Edit

theorem foldlM_addInclusion (t : Tree) (inclusions : List Inclusion) :
    (inclusions.map Edit.addInclusion).foldlM tryApply t =
      some { t with inclusions := t.inclusions ++ inclusions } := by
  induction inclusions generalizing t with
  | nil => simp
  | cons inclusion rest ih =>
    rw [List.map_cons, List.foldlM_cons]
    simpa [tryApply, isAllowed, subject?, apply, Tree.addInclusion] using ih (t.addInclusion inclusion)

theorem foldlM_addDiagnostic (t : Tree) (diagnostics : List Diagnostic) :
    (diagnostics.map Edit.addDiagnostic).foldlM tryApply t =
      some { t with diagnostics := t.diagnostics ++ diagnostics } := by
  induction diagnostics generalizing t with
  | nil => simp
  | cons diagnostic rest ih =>
    rw [List.map_cons, List.foldlM_cons]
    simpa [tryApply, isAllowed, subject?, apply, Tree.addDiagnostic] using ih (t.addDiagnostic diagnostic)

end Edit

namespace Dump

/-- The tree of a unit is made by changes none of which is refused. -/
theorem exists_edits_treeOf (ctx : Context) (messages : Messages) (root : Node) :
    ∃ edits : List Edit,
      edits.foldlM Edit.tryApply (Tree.start ctx.mainFile) = some (treeOf ctx messages root) := by
  have hgrown := growsTo_linked_buildRoot ctx root
  obtain ⟨edits, hedits⟩ := hgrown.exists_edits
  obtain ⟨hi, hd⟩ := hgrown.messages_eq
  refine ⟨edits ++ messages.inclusions.map .addInclusion ++ messages.diagnostics.map .addDiagnostic, ?_⟩
  rw [List.foldlM_append, List.foldlM_append, hedits]
  simp only [Option.bind_eq_bind, Option.bind_some, Edit.foldlM_addInclusion,
    Edit.foldlM_addDiagnostic]
  simp [treeOf, hi, hd, Tree.start]

/-- The document of a unit is read. -/
theorem importTree?_obj (ctx : Context) (messages : Messages) {members : List (String × Json)}
    (h : Json.lookup "kind" members = some (.str unitClass)) :
    (Attrs.ofJson (.obj members)).cls = unitClass ∧
      importTree? ctx messages (.obj members) =
        some (treeOf ctx messages (.mk (.ofJson (.obj members)) (innerOf members))) := by
  have hcls : (Attrs.ofJson (.obj members)).cls = unitClass := by
    simp [Attrs.ofJson, textAttr?, Json.member?, h, Json.text?]
  exact ⟨hcls, by simp [importTree?, Node.ofJson?, Node.attrs, hcls]⟩

/-- Whatever stands in the document of a unit, it is read into a tree that the check accepts, by
changes none of which is refused. -/
theorem importTree?_wellFormed (ctx : Context) (messages : Messages)
    (members : List (String × Json))
    (h : Json.lookup "kind" members = some (.str unitClass)) :
    ∃ t, importTree? ctx messages (.obj members) = some t ∧ t.check = .ok () ∧ t.WellFormed ∧
      ∃ edits : List Edit, edits.foldlM Edit.tryApply (Tree.start ctx.mainFile) = some t := by
  have hwell := (sound_treeOf ctx messages (.mk (.ofJson (.obj members)) (innerOf members))).wellFormed
  exact ⟨_, (importTree?_obj ctx messages h).2, (check_eq_ok_iff _).mpr hwell, hwell,
    exists_edits_treeOf ctx messages _⟩

/-- Two namespaces, each of which names the other as its scope and as its earlier declaration, a third one
with the id of the unit, and a use of a node that is not there. -/
def tangledUnit : List (String × Json) :=
  [("kind", .str "TranslationUnitDecl"), ("id", .str "1"), ("inner", .arr [
    .obj [("kind", .str "NamespaceDecl"), ("id", .str "2"), ("loc", .obj []),
      ("parentDeclContextId", .str "3"), ("previousDecl", .str "3")],
    .obj [("kind", .str "NamespaceDecl"), ("id", .str "3"), ("loc", .obj []),
      ("parentDeclContextId", .str "2"), ("previousDecl", .str "2"), ("inner", .arr [
        .obj [("kind", .str "DeclRefExpr"), ("referencedDecl", .obj [("id", .str "9")])],
        .obj [("kind", .str "NamespaceDecl"), ("id", .str "1"), ("loc", .obj [])]])]])]

/-- The two namespaces are one group, whichever of them is gone through first; the group is the other's. -/
theorem importTree?_wellFormed_tangledUnit :
    let ctx : Context := { mainFile := "main.cpp", order := .backwards }
    Json.lookup "kind" tangledUnit = some (.str unitClass) ∧
      (∃ t, importTree? ctx {} (.obj tangledUnit) = some t ∧ t.check = .ok () ∧ t.WellFormed ∧
        ∃ edits : List Edit, edits.foldlM Edit.tryApply (Tree.start ctx.mainFile) = some t) ∧
      ((importTree? ctx {} (.obj tangledUnit)).map fun t => [t.canonical? 1, t.canonical? 2]) =
        some [some 1, some 1] ∧
      ((importTree? { ctx with order := .ofDocument } {} (.obj tangledUnit)).map fun t =>
        [t.canonical? 1, t.canonical? 2]) = some [some 2, some 2] := by
  intro ctx
  refine ⟨rfl, importTree?_wellFormed ctx {} tangledUnit rfl, ?_, ?_⟩
  · decide +kernel
  · decide +kernel

end Dump

end UnitFacts
