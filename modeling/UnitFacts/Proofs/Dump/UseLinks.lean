import UnitFacts.Proofs.Dump.Passes

/-!
The links from uses to what they name. A reference, a member access and an unresolved look-up say by id what
they are about. Where no two objects of the inventory have the same id, each is linked to the node of the object
with that id, wherever it stands in the document, and to nothing if there is none. Only objects on the inventory
count, so the mere mention of a declaration is never the target. A construction says by type what it is about, and a
later pass links it.
-/

namespace UnitFacts

open UnitFacts.Tree

namespace Dump

/-- A use says by id what it is about. An unresolved look-up gives its first candidate. -/
inductive RefersTo (attrs : Attrs) (name : String) : Prop
  | reference : attrs.cls = "DeclRefExpr" → attrs.referencedId = some name → RefersTo attrs name
  | member : attrs.cls = "MemberExpr" → attrs.memberId = some name → RefersTo attrs name
  | lookup : attrs.cls = "UnresolvedLookupExpr" → attrs.lookupId = some name → RefersTo attrs name
  | memberLookup : attrs.cls = "UnresolvedMemberExpr" → attrs.lookupId = some name → RefersTo attrs name

/-- Uses are linked by id to objects of an inventory, which are declarations in full, and to nothing else. -/
structure UsesLinked (t : Tree) (entries : List Entry) : Prop where
  attached : ∀ e ∈ entries, ∀ name, RefersTo e.attrs name → (t.lexicalParent? e.node).isSome
  referenced_iff : ∀ e ∈ entries, ∀ name, RefersTo e.attrs name → ∀ target,
    t.referenced? e.node = some target ↔ ∃ o ∈ entries, o.attrs.id = some name ∧ o.node = target
  full : ∀ o ∈ entries, o.declares = true ∨ o.role = .pattern → o.attrs.isMention = false

theorem refersTo_iff (attrs : Attrs) (name : String) : RefersTo attrs name ↔ linkTarget? attrs = some name := by
  constructor
  · rintro (⟨hcls, h⟩ | ⟨hcls, h⟩ | ⟨hcls, h⟩ | ⟨hcls, h⟩) <;> simp [linkTarget?, hcls, h]
  · intro h
    unfold linkTarget? at h
    split at h
    · exact .reference ‹_› h
    · exact .member ‹_› h
    · exact .lookup ‹_› h
    · exact .memberLookup ‹_› h
    · cases h

theorem RefersTo.plan_eq {attrs : Attrs} {name : String} (h : RefersTo attrs name) :
    ∃ kind, attrs.plan = .statement kind := by
  rcases h with ⟨hcls, -⟩ | ⟨hcls, -⟩ | ⟨hcls, -⟩ | ⟨hcls, -⟩
  all_goals
    rw [Attrs.plan, hcls]
    exact ⟨_, rfl⟩

/-- A use constructs nothing. -/
theorem RefersTo.construct?_eq_none {attrs : Attrs} {name : String} (h : RefersTo attrs name) (id : NodeId) :
    construct? attrs id = none := by
  rcases h with ⟨hcls, -⟩ | ⟨hcls, -⟩ | ⟨hcls, -⟩ | ⟨hcls, -⟩ <;> simp [construct?, hcls]

/-! ### Setting references -/

section Setting

variable {α : Type} (node : α → NodeId) (target? : α → Option NodeId)

/-- Sets the reference of a node to the target of an item, if it has one. -/
def setTarget (t : Tree) (item : α) : Tree :=
  match target? item with
  | some target => t.setReferenced (node item) target
  | none => t

theorem size_setTarget (t : Tree) (item : α) : (setTarget node target? t item).size = t.size := by
  unfold setTarget
  split
  · exact t.size_modify _ _
  · rfl

theorem referenced?_setTarget {t : Tree} {k : NodeId} (hk : k < t.size) (item : α) :
    (setTarget node target? t item).referenced? k =
      (if node item = k then target? item else none).or (t.referenced? k) := by
  obtain ⟨n, hn⟩ := exists_node? hk
  unfold setTarget
  cases target? item with
  | none => simp
  | some target =>
    simp only [setReferenced, referenced?, node?_modify]
    by_cases hnode : node item = k <;> simp [hnode, hn]

/-- Of the items for a node that have targets, the last one counts. -/
theorem referenced?_foldl_setTarget (items : List α) {t : Tree} {k : NodeId} (hk : k < t.size) :
    (items.foldl (setTarget node target?) t).referenced? k =
      (items.reverse.findSome? fun item => if node item = k then target? item else none).or (t.referenced? k) := by
  induction items generalizing t with
  | nil => rfl
  | cons item rest ih =>
    rw [List.foldl_cons, ih ((size_setTarget node target? t item).symm ▸ hk), referenced?_setTarget node target? hk,
      List.reverse_cons, List.findSome?_append, Option.or_assoc]
    congr 1
    cases hitem : (if node item = k then target? item else none) <;> simp [hitem]

/-- A node gets the target of the one item that is about it, if it has any, and otherwise keeps its reference. -/
theorem referenced?_foldl_setTarget_of_only {items : List α} {t : Tree} {k : NodeId} (hk : k < t.size)
    {only? : Option α} (h : ∀ item, only? = some item ↔ item ∈ items ∧ node item = k) :
    (items.foldl (setTarget node target?) t).referenced? k = (only?.bind target?).or (t.referenced? k) := by
  rw [referenced?_foldl_setTarget node target? items hk]
  congr 1
  cases only? with
  | none =>
    refine List.findSome?_eq_none_iff.mpr fun item hitem => if_neg fun hnode => ?_
    cases (h item).mpr ⟨List.mem_reverse.mp hitem, hnode⟩
  | some only =>
    obtain ⟨honly, hnode⟩ := (h only).mp rfl
    refine (findSome?_eq_of_mem (List.mem_reverse.mpr honly) fun item hitem => ?_).trans (if_pos hnode)
    by_cases hitemNode : node item = k
    · obtain rfl := Option.some.inj ((h item).mpr ⟨List.mem_reverse.mp hitem, hitemNode⟩)
      exact Or.inr rfl
    · exact Or.inl (if_neg hitemNode)

end Setting

/-! ### The passes for references -/

/-- The constructor that a construction is linked to. -/
def constructed? (d : Draft) (t : Tree) (construct : Construct) : Option NodeId :=
  construct.records.findSome? fun record => constructor? d t record construct.ctorType

theorem linkConstruct_eq_setTarget (d : Draft) (names : Tree) :
    linkConstruct d names = setTarget Construct.node (constructed? d names) := rfl

/-- The tree whose names count for constructions. -/
def Draft.named (d : Draft) (groups : List (NodeId × List NodeId)) : Tree :=
  linkReferences d (linkGroups (linkScopes d d.tree) groups)

theorem label?_named (d : Draft) (groups : List (NodeId × List NodeId)) (k : NodeId) :
    (d.named groups).label? k = (d.resolved groups).label? k := (label?_linkConstructs d (d.named groups) k).symm

theorem size_named (d : Draft) (groups : List (NodeId × List NodeId)) : (d.named groups).size = d.tree.size :=
  size_eq_of_unscoped_eq fun k => by rw [label?_named, unscoped_resolved]

/-- The tree of a unit whose names count for its constructions. -/
def namesOf (ctx : Context) (root : Node) : Tree := (buildRoot ctx root).named ((buildRoot ctx root).groups ctx.order)

section Before

variable (d : Draft) (t : Tree) (k : NodeId)

theorem referenced?_linkScopes : (linkScopes d t).referenced? k = t.referenced? k := by
  refine view_linkScopes (·.referenced? k) d t fun t id scope => ?_
  apply referenced?_modify
  exact fun _ => rfl

theorem referenced?_linkGroups (groups : List (NodeId × List NodeId)) :
    (linkGroups t groups).referenced? k = t.referenced? k := by
  refine view_linkGroups (·.referenced? k) t (fun t id target => ?_) (fun t id target => ?_) groups
  all_goals
    apply referenced?_modify
    exact fun _ => rfl

end Before

/-! ### The objects of a unit -/

theorem Entry.of_reference?_eq_some (e : Entry) {link : NodeId × String} (h : e.reference? = some link) :
    e.role = .statement ∧ link.1 = e.node := by
  unfold Entry.reference? at h
  split at h
  · obtain ⟨target, -, rfl⟩ := Option.map_eq_some_iff.mp h
    exact ⟨‹_›, rfl⟩
  · cases h

theorem Entry.of_construct?_eq_some (e : Entry) {construct : Construct} (h : e.construct? = some construct) :
    e.role = .statement ∧ construct.node = e.node := by
  unfold Entry.construct? at h
  split at h
  · exact ⟨‹_›, node_construct? h⟩
  · cases h

section Unit

variable {ctx : Context} {attrs : Attrs} {inner : List Node}

/-- What is looked up by id, where no id is given twice. -/
theorem lookup?_eq_some_iff (hids : ((unitInventory ctx attrs inner).filterMap (·.attrs.id)).Nodup) (name : String)
    (target : NodeId) : (buildRoot ctx (.mk attrs inner)).lookup? name = some target ↔
      ∃ o ∈ unitInventory ctx attrs inner, o.attrs.id = some name ∧ o.node = target := by
  have hkeys : ((buildRoot ctx (.mk attrs inner)).ids.map Prod.fst).Nodup := by
    have hfst : (fun e : Entry => e.id?.map Prod.fst) = fun e => e.attrs.id := by
      funext e
      cases hid : e.attrs.id <;> simp [Entry.id?, hid]
    rw [ids_buildRoot, List.map_reverse, List.nodup_reverse, List.map_filterMap, hfst]
    exact hids
  have hmem : (name, target) ∈ (buildRoot ctx (.mk attrs inner)).ids ↔
      ∃ o ∈ unitInventory ctx attrs inner, o.attrs.id = some name ∧ o.node = target := by
    rw [ids_buildRoot, List.mem_reverse, List.mem_filterMap]
    simp [Entry.id?]
  rw [← hmem]
  exact ⟨mem_of_lookup_eq_some, lookup_eq_some_of_mem hkeys⟩

section Statement

variable {e : Entry} (he : e ∈ unitInventory ctx attrs inner) (hrole : e.role = .statement)
include he hrole

/-- What is noted for the node of a statement is noted by that statement. -/
theorem noted_iff {α : Type} (note? : Entry → Option α) (node : α → NodeId)
    (hnote : ∀ o item, note? o = some item → o.role = .statement ∧ node item = o.node) (item : α) :
    note? e = some item ↔ item ∈ (unitInventory ctx attrs inner).filterMap note? ∧ node item = e.node := by
  constructor
  · exact fun hitem => ⟨List.mem_filterMap.mpr ⟨e, he, hitem⟩, (hnote e item hitem).2⟩
  · rintro ⟨hmem, hnode⟩
    obtain ⟨o, ho, hitem⟩ := List.mem_filterMap.mp hmem
    obtain ⟨hstatement, hsame⟩ := hnote o item hitem
    obtain rfl := Entry.eq_of_node_eq ho he (by simp [Entry.isNew, hstatement]) (by simp [Entry.isNew, hrole])
      (hsame.symm.trans hnode)
    exact hitem

variable (groups : List (NodeId × List NodeId))

/-- The pass for references links a statement to what is looked up for it. -/
theorem referenced?_named : ((buildRoot ctx (.mk attrs inner)).named groups).referenced? e.node =
    (linkTarget? e.attrs).bind (buildRoot ctx (.mk attrs inner)).lookup? := by
  have honly := noted_iff he hrole Entry.reference? Prod.fst fun o link => o.of_reference?_eq_some
  have hlt := lt_size_of_kind? (Entry.kind?_of_mem he)
  have hlinks := linksOf_buildRoot ctx (.mk attrs inner) e.node
  have hreferences := references_buildRoot ctx attrs inner
  generalize buildRoot ctx (.mk attrs inner) = d at *
  have hsize : (linkGroups (linkScopes d d.tree) groups).size = d.tree.size :=
    size_eq_of_unscoped_eq fun k => by rw [label?_linkGroups, unscoped_linkScopes]
  have hnone : (linkGroups (linkScopes d d.tree) groups).referenced? e.node = none := by
    rw [referenced?_linkGroups, referenced?_linkScopes, referenced?_eq_links, hlinks]
  rw [Draft.named, linkReferences, hreferences, List.reverse_reverse]
  refine (referenced?_foldl_setTarget_of_only Prod.fst (fun link => d.lookup? link.2) (hsize.symm ▸ hlt)
    honly).trans ?_
  rw [hnone, Option.or_none, Entry.reference?, if_pos hrole]
  cases linkTarget? e.attrs <;> rfl

/-- The passes link a construction to the constructor that is found for it, and any other statement to what is looked
up for it. -/
theorem referenced?_resolved : ((buildRoot ctx (.mk attrs inner)).resolved groups).referenced? e.node =
    ((construct? e.attrs e.node).bind
        (constructed? (buildRoot ctx (.mk attrs inner)) ((buildRoot ctx (.mk attrs inner)).named groups))).or
      ((linkTarget? e.attrs).bind (buildRoot ctx (.mk attrs inner)).lookup?) := by
  have honly := noted_iff he hrole Entry.construct? Construct.node fun o construct => o.of_construct?_eq_some
  have hlt := lt_size_of_kind? (Entry.kind?_of_mem he)
  have hconstructs := constructs_buildRoot ctx attrs inner
  rw [← referenced?_named he hrole groups]
  generalize buildRoot ctx (.mk attrs inner) = d at *
  have hresolved : d.resolved groups = linkConstructs d (d.named groups) := rfl
  rw [hresolved, linkConstructs, hconstructs, List.reverse_reverse, linkConstruct_eq_setTarget,
    referenced?_foldl_setTarget_of_only _ _ ((size_named d groups).symm ▸ hlt) honly, Entry.construct?, if_pos hrole]

theorem referenced?_treeOf (messages : Messages) : (treeOf ctx messages (.mk attrs inner)).referenced? e.node =
    ((construct? e.attrs e.node).bind
        (constructed? (buildRoot ctx (.mk attrs inner)) (namesOf ctx (.mk attrs inner)))).or
      ((linkTarget? e.attrs).bind (buildRoot ctx (.mk attrs inner)).lookup?) := by
  have hbounded := (sound_buildRoot ctx (.mk attrs inner)).bounded
  have hlinked : (treeOf ctx messages (.mk attrs inner)).referenced? e.node =
      ((buildRoot ctx (.mk attrs inner)).linked ctx).referenced? e.node := rfl
  rw [hlinked, Draft.linked_eq_linkedIn, Draft.linkedIn,
    referenced?_foldl_addTypeUse (owner_lt_of_mem_typeUsesIn ctx _ _ hbounded)
      ((size_resolved ..).symm ▸ lt_size_of_kind? (Entry.kind?_of_mem he)), referenced?_resolved he hrole,
    namesOf]

end Statement

/-- What is read as a statement is one, the unit aside. -/
theorem Entry.role_eq_of_plan {e : Entry} (he : e ∈ unitInventory ctx attrs inner) (hcls : attrs.cls = unitClass)
    {kind : NodeKind} (hplan : e.attrs.plan = .statement kind) : e.role = .statement := by
  rcases List.mem_cons.mp he with rfl | hinside
  · have hunit : attrs.plan = .declaration .unexposedDecl := by
      rw [Attrs.plan, hcls]
      rfl
    cases hunit.symm.trans hplan
  · exact ((takes_buildRoot ctx attrs inner).regular e hinside).planned.mpr ⟨kind, hplan⟩

/-- Only expressions refer to anything by id. -/
theorem RefersTo.role_eq {e : Entry} (he : e ∈ unitInventory ctx attrs inner) (hcls : attrs.cls = unitClass)
    {name : String} (hrefers : RefersTo e.attrs name) : e.role = .statement := by
  obtain ⟨kind, hplan⟩ := hrefers.plan_eq
  exact Entry.role_eq_of_plan he hcls hplan

theorem usesLinked_treeOf (messages : Messages) (hcls : attrs.cls = unitClass)
    (hids : ((unitInventory ctx attrs inner).filterMap (·.attrs.id)).Nodup) :
    UsesLinked (treeOf ctx messages (.mk attrs inner)) (unitInventory ctx attrs inner) where
  attached e he name hrefers := by
    have hrole := hrefers.role_eq he hcls
    have hinside : e.role ≠ .unit := by simp [hrole]
    exact ((holds_treeOf ctx messages attrs inner).attached_iff e he hinside).mpr
      ((Entry.regular_of_mem he hinside).attached hrole)
  referenced_iff e he name hrefers target := by
    rw [referenced?_treeOf he (hrefers.role_eq he hcls), hrefers.construct?_eq_none, (refersTo_iff ..).mp hrefers]
    exact lookup?_eq_some_iff hids name target
  full o ho hdeclares := by
    have hrole : o.role ≠ .unit ∧ o.role ≠ .statement := by
      simp only [Entry.declares, Bool.or_eq_true, decide_eq_true_eq] at hdeclares
      rcases hdeclares with (hrole | hrole) | hrole <;> simp [hrole]
    exact (Entry.regular_of_mem ho hrole.1).full hrole.2

end Unit

/-- Every use in a unit without repeated ids is linked to the node of what it names. -/
theorem importTree?_usesLinked (ctx : Context) (messages : Messages) (members : List (String × Json))
    (hunit : Json.lookup "kind" members = some (.str unitClass))
    (hids : ((unitInventory ctx (.ofJson (.obj members)) (innerOf members)).filterMap (·.attrs.id)).Nodup) :
    ∃ t, importTree? ctx messages (.obj members) = some t ∧
      Holds t (unitInventory ctx (.ofJson (.obj members)) (innerOf members)) ∧
      UsesLinked t (unitInventory ctx (.ofJson (.obj members)) (innerOf members)) := by
  obtain ⟨hcls, himport⟩ := importTree?_obj ctx messages hunit
  exact ⟨_, himport, holds_treeOf .., usesLinked_treeOf messages hcls hids⟩

/-- A function that uses a later function, the pattern of a template, a member, a candidate of an overload, an
implicit function and a function that is only mentioned. -/
def usingUnit : List (String × Json) :=
  [("kind", .str "TranslationUnitDecl"), ("id", .str "u"), ("inner", .arr [
    .obj [("kind", .str "CXXRecordDecl"), ("id", .str "c"), ("loc", .obj []), ("inner", .arr [
      .obj [("kind", .str "FieldDecl"), ("id", .str "m"), ("loc", .obj [])],
      .obj [("kind", .str "FriendDecl"), ("loc", .obj []), ("inner", .arr [
        .obj [("kind", .str "FunctionDecl"), ("id", .str "late"), ("name", .str "late")],
        .obj [("kind", .str "FunctionDecl"), ("id", .str "absent"), ("name", .str "absent")]])]])],
    .obj [("kind", .str "FunctionDecl"), ("id", .str "f"), ("loc", .obj []), ("inner", .arr [
      .obj [("kind", .str "CompoundStmt"), ("inner", .arr [
        .obj [("kind", .str "DeclRefExpr"), ("id", .str "1"), ("referencedDecl", .obj [("id", .str "late")])],
        .obj [("kind", .str "DeclRefExpr"), ("id", .str "2"), ("referencedDecl", .obj [("id", .str "pattern")])],
        .obj [("kind", .str "MemberExpr"), ("id", .str "3"), ("referencedMemberDecl", .str "m")],
        .obj [("kind", .str "UnresolvedLookupExpr"), ("id", .str "4"), ("lookups", .arr [
          .obj [("id", .str "template")], .obj [("id", .str "f")]])],
        .obj [("kind", .str "DeclRefExpr"), ("id", .str "5"), ("referencedDecl", .obj [("id", .str "implicit")])],
        .obj [("kind", .str "DeclRefExpr"), ("id", .str "6"), ("referencedDecl", .obj [("id", .str "absent")])]])]])],
    .obj [("kind", .str "FunctionTemplateDecl"), ("id", .str "template"), ("loc", .obj []), ("inner", .arr [
      .obj [("kind", .str "FunctionDecl"), ("id", .str "pattern"), ("loc", .obj [])]])],
    .obj [("kind", .str "FunctionDecl"), ("id", .str "implicit"), ("isImplicit", .bool true), ("loc", .obj [])],
    .obj [("kind", .str "FunctionDecl"), ("id", .str "late"), ("loc", .obj [])]])]

/-- The six uses and the nodes that they are linked to. -/
theorem importTree?_usesLinked_usingUnit :
    let ctx : Context := { mainFile := "main.cpp" }
    Json.lookup "kind" usingUnit = some (.str unitClass) ∧
      ((unitInventory ctx (.ofJson (.obj usingUnit)) (innerOf usingUnit)).filterMap (·.attrs.id)).Nodup ∧
      (∃ t, importTree? ctx {} (.obj usingUnit) = some t ∧
        Holds t (unitInventory ctx (.ofJson (.obj usingUnit)) (innerOf usingUnit)) ∧
        UsesLinked t (unitInventory ctx (.ofJson (.obj usingUnit)) (innerOf usingUnit))) ∧
      ((importTree? ctx {} (.obj usingUnit)).map fun t => [6, 7, 8, 9, 10, 11].map t.referenced?) =
        some [some 14, some 12, some 2, some 12, some 13, none] := by
  intro ctx
  have hids : ((unitInventory ctx (.ofJson (.obj usingUnit)) (innerOf usingUnit)).filterMap (·.attrs.id)).Nodup := by
    decide +kernel
  refine ⟨rfl, hids, importTree?_usesLinked ctx {} usingUnit rfl hids, ?_⟩
  decide +kernel

end Dump

end UnitFacts
