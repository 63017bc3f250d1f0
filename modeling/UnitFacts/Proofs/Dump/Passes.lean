import UnitFacts.Proofs.Dump.Decoration
import UnitFacts.Proofs.Dump.Redeclarations
import UnitFacts.Proofs.Dump.Stock

/-!
What the passes that resolve links leave alone. No pass changes the label of a node that was read, but for the
scope where a scope is named by id. A type reference is a new node at the end of the table, and all that its
owner gets is one more child.
-/

namespace UnitFacts

open UnitFacts.Tree

namespace Dump

section Labels

variable (d : Draft) (t : Tree) (k : NodeId)

theorem label?_linkGroups (groups : List (NodeId × List NodeId)) : (linkGroups t groups).label? k = t.label? k :=
  view_linkGroups (·.label? k) t (fun t id => label?_setCanonical t id k)
    (fun t id => label?_setDefinition t id k) groups

theorem label?_linkReferences : (linkReferences d t).label? k = t.label? k :=
  view_linkReferences (·.label? k) d t fun t id => label?_setReferenced t id k

theorem label?_linkConstructs : (linkConstructs d t).label? k = t.label? k :=
  view_linkConstructs (·.label? k) d t fun t id => label?_setReferenced t id k

/-- Scopes that are named by id change no more than the scopes of nodes. -/
theorem unscoped_linkScopes :
    ((linkScopes d t).label? k).map Label.unscoped = (t.label? k).map Label.unscoped := by
  refine view_linkScopes (fun t => (t.label? k).map Label.unscoped) d t fun t id scope => ?_
  rw [label?_setSemanticParent]
  split
  · rw [Option.map_map]
    rfl
  · rfl

theorem linkScopes_eq_self {d : Draft} (h : d.contexts = []) (t : Tree) : linkScopes d t = t := by
  rw [linkScopes, h]
  rfl

end Labels

section TypeUse

variable (ctx : Context) (t : Tree)

/-- The node of a type reference. -/
def typeUseNode (use : TypeUse) : UnitFacts.Node :=
  { t.attachedNode use.owner .typeRef (t.spelling use.target) with
    position := some ⟨fileIndex ctx (withFile ctx t use.file) use.file, UInt32.ofNat use.token.line,
      UInt32.ofNat use.token.col⟩
    referenced := some use.target }

@[simp] theorem node?_withFile (path : String) (k : NodeId) : (withFile ctx t path).node? k = t.node? k := by
  unfold withFile
  split
  · rfl
  · exact t.node?_addFile path _ k

theorem files_withFile {t t' : Tree} (h : t'.files = t.files) (path : String) :
    (withFile ctx t' path).files = (withFile ctx t path).files := by
  unfold withFile addFile fileId?
  rw [h]
  split
  · exact h
  · cases t.files.findIdx? fun file => decide (file.path = path) with
    | none => rfl
    | some index => exact h

theorem fileIndex_congr {t t' : Tree} (h : t'.files = t.files) (path : String) :
    fileIndex ctx t' path = fileIndex ctx t path := by
  unfold fileIndex fileId?
  rw [h]

theorem node?_addTypeUse {use : TypeUse} (howner : use.owner < t.size) (k : NodeId) :
    (addTypeUse ctx t use).node? k =
      if k = t.size then some (typeUseNode ctx t use)
      else if k = use.owner then (t.node? k).map fun n => { n with children := n.children ++ [t.size] }
      else t.node? k := by
  have hattach : (t.attach use.owner .typeRef (t.spelling use.target)).2.files = t.files := rfl
  have hfile := fileIndex_congr ctx (files_withFile ctx hattach use.file) use.file
  simp only [addTypeUse, placeAt, setReferenced, place, node?_modify, node?_withFile, hfile,
    node?_attach t use.owner .typeRef (t.spelling use.target) howner]
  have hid : t.nextId = t.size := rfl
  by_cases hk : k = t.size
  · simp [hk, hid, typeUseNode]
  · simp [hk, hid, Ne.symm hk]

section Old

variable {ctx : Context} {t : Tree} {uses : List TypeUse} (howner : ∀ use ∈ uses, use.owner < t.size) {k : NodeId}
  (hk : k < t.size)
include howner hk

/-- What is not about children is as before at the nodes that were there. -/
theorem bind_node?_foldl_addTypeUse {α : Type} (part : UnitFacts.Node → Option α)
    (hpart : ∀ n children, part { n with children := children } = part n) :
    ((uses.foldl (addTypeUse ctx) t).node? k).bind part = (t.node? k).bind part := by
  induction uses generalizing t with
  | nil => rfl
  | cons use rest ih =>
    obtain ⟨huse, hrest⟩ := List.forall_mem_cons.mp howner
    have hsize := size_addTypeUse ctx t use
    rw [List.foldl_cons, ih (fun other hother => by have := hrest other hother; lia) (by lia),
      node?_addTypeUse ctx t huse, if_neg (Nat.ne_of_lt hk)]
    split
    · rw [Option.bind_map]
      congr 1
      funext n
      exact hpart n _
    · rfl

theorem label?_foldl_addTypeUse : (uses.foldl (addTypeUse ctx) t).label? k = t.label? k := by
  rw [label?, label?, Option.map_eq_bind, Option.map_eq_bind]
  exact bind_node?_foldl_addTypeUse howner hk _ fun _ _ => rfl

theorem referenced?_foldl_addTypeUse : (uses.foldl (addTypeUse ctx) t).referenced? k = t.referenced? k :=
  bind_node?_foldl_addTypeUse howner hk _ fun _ _ => rfl

end Old

end TypeUse

/-! ### All passes -/

/-- The uses of some mentions, if types are looked up in this table. -/
def typeUsesIn (ctx : Context) (types : List (String × NodeId)) (mentions : List Mention) : List TypeUse :=
  firstByKey (fun use => (use.owner, use.token.offset)) [] (mentions.flatMap (mentionUses ctx types))

namespace Draft

/-- The tree of a draft in which these groups are linked, with all its links but the type references. -/
def resolved (d : Draft) (groups : List (NodeId × List NodeId)) : Tree :=
  linkConstructs d (linkReferences d (linkGroups (linkScopes d d.tree) groups))

/-- The tree of a draft in which these groups are linked and types are looked up in this table. -/
def linkedIn (ctx : Context) (d : Draft) (groups : List (NodeId × List NodeId)) (types : List (String × NodeId)) :
    Tree :=
  (typeUsesIn ctx types d.mentions.reverse).foldl (addTypeUse ctx) (d.resolved groups)

theorem linked_eq_linkedIn (ctx : Context) (d : Draft) :
    d.linked ctx = d.linkedIn ctx (d.groups ctx.order) (typeTable (d.resolved (d.groups ctx.order))) := rfl

end Draft

theorem exists_mention_of_mem_typeUsesIn {ctx : Context} {types : List (String × NodeId)} {mentions : List Mention}
    {use : TypeUse} (h : use ∈ typeUsesIn ctx types mentions) :
    ∃ mention ∈ mentions, mention.owner = use.owner := by
  obtain ⟨mention, hmention, huse⟩ := List.mem_flatMap.mp (mem_of_mem_firstByKey _ _ _ h)
  exact ⟨mention, hmention, (of_mem_mentionUses huse).1.symm⟩

section Linked

variable (ctx : Context) (d : Draft) (groups : List (NodeId × List NodeId)) (types : List (String × NodeId))

theorem label?_resolved (k : NodeId) : (d.resolved groups).label? k = (linkScopes d d.tree).label? k := by
  rw [Draft.resolved, label?_linkConstructs, label?_linkReferences, label?_linkGroups]

theorem unscoped_resolved (k : NodeId) :
    ((d.resolved groups).label? k).map Label.unscoped = (d.tree.label? k).map Label.unscoped := by
  rw [label?_resolved, unscoped_linkScopes]

theorem size_resolved : (d.resolved groups).size = d.tree.size := size_eq_of_unscoped_eq (unscoped_resolved d groups)

theorem children_resolved (k : NodeId) : (d.resolved groups).children k = d.tree.children k := by
  rw [children_eq_shape, Draft.resolved, shape?_linkConstructs, shape?_linkReferences, shape?_linkGroups,
    shape?_linkScopes, ← children_eq_shape]

theorem files_resolved : (d.resolved groups).files = d.tree.files := by
  rw [Draft.resolved, view_linkConstructs Tree.files, view_linkReferences Tree.files, view_linkGroups Tree.files,
    view_linkScopes Tree.files] <;> exact fun _ _ _ => rfl

variable {d} (hd : d.Bounded)
include hd

theorem owner_lt_of_mem_typeUsesIn : ∀ use ∈ typeUsesIn ctx types d.mentions.reverse,
    use.owner < (d.resolved groups).size := by
  intro use huse
  obtain ⟨mention, hmention, howner⟩ := exists_mention_of_mem_typeUsesIn huse
  rw [size_resolved, ← howner]
  exact hd.mentions mention (List.mem_reverse.mp hmention)

theorem label?_linkedIn {k : NodeId} (hk : k < d.tree.size) :
    (d.linkedIn ctx groups types).label? k = (linkScopes d d.tree).label? k := by
  rw [Draft.linkedIn, label?_foldl_addTypeUse (owner_lt_of_mem_typeUsesIn ctx groups types hd)
    ((size_resolved d groups).symm ▸ hk), label?_resolved]

end Linked

/-- All nodes after those that were read are type references. -/
theorem kind?_linkedIn_of_le (ctx : Context) {d : Draft} (hd : d.MentionsAttached)
    (groups : List (NodeId × List NodeId)) (types : List (String × NodeId)) {k : NodeId} (hk : d.tree.size ≤ k)
    {kind : NodeKind} (hkind : (d.linkedIn ctx groups types).kind? k = some kind) : kind = .typeRef := by
  have hdec : Decorated (d.resolved groups) (d.linkedIn ctx groups types) := by
    refine Decorated.foldl_addTypeUse ctx _ (fun use huse => ?_) (Decorated.of_shape_eq fun _ => rfl)
    obtain ⟨mention, hmention, howner⟩ := exists_mention_of_mem_typeUsesIn huse
    rw [lexicalParent?_eq_unscoped, unscoped_resolved, ← lexicalParent?_eq_unscoped, ← howner]
    exact hd mention (List.mem_reverse.mp hmention)
  obtain ⟨spelling, owner, hshape, -⟩ := hdec.new k (size_resolved d groups ▸ hk) (lt_size_of_kind? hkind)
  rw [kind?_eq_shape, hshape] at hkind
  exact (Option.some.inj hkind).symm

/-! ### The tree of a unit -/

/-- The tree of a unit in which these groups are linked and types are looked up in this table. -/
def treeIn (ctx : Context) (messages : Messages) (root : Node) (groups : List (NodeId × List NodeId))
    (types : List (String × NodeId)) : Tree :=
  { (buildRoot ctx root).linkedIn ctx groups types with
    inclusions := messages.inclusions
    diagnostics := messages.diagnostics }

theorem treeOf_eq_treeIn (ctx : Context) (messages : Messages) (root : Node) :
    treeOf ctx messages root = treeIn ctx messages root ((buildRoot ctx root).groups ctx.order)
      (typeTable ((buildRoot ctx root).resolved ((buildRoot ctx root).groups ctx.order))) := by
  rw [treeOf, Draft.linked_eq_linkedIn]
  rfl

@[simp] theorem label?_treeIn (ctx : Context) (messages : Messages) (root : Node)
    (groups : List (NodeId × List NodeId)) (types : List (String × NodeId)) (k : NodeId) :
    (treeIn ctx messages root groups types).label? k = ((buildRoot ctx root).linkedIn ctx groups types).label? k := rfl

/-- A tree holds the objects of an inventory, each at its node, and beside them nothing but type references. No
two objects share a node but a pattern and its template. -/
structure Holds (t : Tree) (entries : List Entry) : Prop where
  kind?_eq : ∀ e ∈ entries, t.kind? e.node = some e.kind
  attached_iff : ∀ e ∈ entries, e.role ≠ .unit → ((t.lexicalParent? e.node).isSome ↔ e.loose = false)
  node_inj : ∀ e ∈ entries, ∀ o ∈ entries, e.isNew = true → o.isNew = true → e.node = o.node → e = o
  exists_entry : ∀ id kind, t.kind? id = some kind → kind ≠ .typeRef →
    ∃ e ∈ entries, e.isNew = true ∧ e.node = id
  exists_template : ∀ p ∈ entries, p.role = .pattern → ∃ e ∈ entries, e.role = .template ∧ e.node = p.node

section Unit

variable {ctx : Context} {attrs : Attrs} {inner : List Node}

theorem holds_of_unscoped_eq {t : Tree}
    (hold : ∀ k, k < (buildRoot ctx (.mk attrs inner)).tree.size → (t.label? k).map Label.unscoped =
      ((buildRoot ctx (.mk attrs inner)).tree.label? k).map Label.unscoped)
    (hnew : ∀ k kind, (buildRoot ctx (.mk attrs inner)).tree.size ≤ k → t.kind? k = some kind →
      kind = .typeRef) :
    Holds t (unitInventory ctx attrs inner) where
  kind?_eq e he := by
    have hkind := Entry.kind?_of_mem he
    rw [kind?_eq_unscoped, hold _ (lt_size_of_kind? hkind), ← kind?_eq_unscoped, hkind]
  attached_iff e he hrole := by
    rw [lexicalParent?_eq_unscoped, hold _ (lt_size_of_kind? (Entry.kind?_of_mem he)), ← lexicalParent?_eq_unscoped,
      Entry.attached_of_mem he hrole]
    simp
  node_inj e he o ho := Entry.eq_of_node_eq he ho
  exists_entry id kind hkind hne := by
    have hread : id < (buildRoot ctx (.mk attrs inner)).tree.size := by
      by_contra hge
      exact hne (hnew id kind (Nat.le_of_not_lt hge) hkind)
    rw [← List.mem_range, ← numbered_unitInventory] at hread
    obtain ⟨e, he, hnode⟩ := List.mem_map.mp hread
    exact ⟨e, (List.mem_filter.mp he).1, (List.mem_filter.mp he).2, hnode⟩
  exists_template p hp hrole := by
    obtain ⟨e, he, htemplate, hnode, -⟩ := exists_template_of_pattern hp hrole
    exact ⟨e, he, htemplate, hnode⟩

variable (ctx : Context) (messages : Messages) (attrs : Attrs) (inner : List Node)

theorem unscoped_treeIn (groups : List (NodeId × List NodeId)) (types : List (String × NodeId)) {k : NodeId}
    (hk : k < (buildRoot ctx (.mk attrs inner)).tree.size) :
    ((treeIn ctx messages (.mk attrs inner) groups types).label? k).map Label.unscoped =
      ((buildRoot ctx (.mk attrs inner)).tree.label? k).map Label.unscoped := by
  rw [label?_treeIn, label?_linkedIn ctx groups types (sound_buildRoot ctx _).bounded hk, unscoped_linkScopes]

/-- Whatever the order of groups and types, the tree of a unit holds its objects. -/
theorem holds_treeIn (groups : List (NodeId × List NodeId)) (types : List (String × NodeId)) :
    Holds (treeIn ctx messages (.mk attrs inner) groups types) (unitInventory ctx attrs inner) := by
  refine holds_of_unscoped_eq (fun k hk => ?_) fun k kind hk hkind => ?_
  · exact unscoped_treeIn ctx messages attrs inner groups types hk
  · exact kind?_linkedIn_of_le ctx (mentionsAttached_buildRoot ctx attrs inner) groups types hk hkind

/-- Declarations keep their names. -/
theorem spelling_treeOf {e : Entry} (he : e ∈ unitInventory ctx attrs inner) (hdeclares : e.declares = true) :
    (treeOf ctx messages (.mk attrs inner)).spelling e.node = e.attrs.name := by
  have hrole : e.role ≠ .unit ∧ e.isNew = true ∧ e.spelling = e.attrs.name := by
    simp only [Entry.declares, Bool.or_eq_true, decide_eq_true_eq] at hdeclares
    rcases hdeclares with hrole | hrole <;> simp [Entry.isNew, Entry.spelling, hrole]
  obtain ⟨parent, scope, hlabel, -⟩ := Entry.stands_of_mem he hrole.1 hrole.2.1
  rw [treeOf_eq_treeIn, spelling_eq_unscoped,
    unscoped_treeIn ctx messages attrs inner _ _ (lt_size_of_label? hlabel), hlabel]
  exact hrole.2.2

theorem holds_treeOf : Holds (treeOf ctx messages (.mk attrs inner)) (unitInventory ctx attrs inner) := by
  rw [treeOf_eq_treeIn]
  exact holds_treeIn ctx messages attrs inner _ _

end Unit

end Dump

end UnitFacts
