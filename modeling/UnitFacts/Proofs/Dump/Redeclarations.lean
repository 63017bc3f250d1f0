import UnitFacts.Proofs.Dump.LinkedGroups
import UnitFacts.Proofs.Dump.Linking
import UnitFacts.Proofs.Dump.Standing
import UnitFacts.Proofs.Dump.Stock

/-!
The links between redeclarations. Of every declaration that a dump redeclares, all nodes get the first as
their canonical declaration, and the definition if there is one; no other node gets either link. This holds
whatever the order in which the groups are searched for and linked, as long as the links to earlier
declarations run in no circle and no group leaves a choice of its definition.
-/

namespace UnitFacts

open UnitFacts.Tree

namespace Dump

/-- A node redeclares an earlier one: of the links noted for it that lead to some other node, the last
leads there. The newest notes come first. -/
def Draft.Redeclares (d : Draft) (id earlier : NodeId) : Prop :=
  ∃ newer name older, d.previous = newer ++ (id, name) :: older ∧ d.lookup? name = some earlier ∧
    earlier ≠ id ∧ ∀ other target, (id, other) ∈ newer → d.lookup? other = some target → target = id

/-- `first` is the first declaration of what `id` declares. -/
abbrev Draft.Declares (d : Draft) (id first : NodeId) : Prop := EndsAt d.Redeclares id first

/-- More than one node declares what `first` is the first declaration of. -/
def Draft.IsRedeclared (d : Draft) (first : NodeId) : Prop := ∃ other, other ≠ first ∧ d.Declares other first

/-- No two definitions are in one group, unless the first declaration is a definition. -/
def Draft.OneDefinition (d : Draft) : Prop :=
  ∀ first, d.tree.isDefinition first = true ∨
    ∀ a b, d.Declares a first → d.Declares b first → d.tree.isDefinition a = true →
      d.tree.isDefinition b = true → a = b

/-- An order of the nodes that redeclare something. -/
structure Draft.Enumerates (d : Draft) (order : List NodeId) : Prop where
  nodup : order.Nodup
  mem_iff : ∀ id, id ∈ order ↔ ∃ earlier, d.Redeclares id earlier

/-- Every node of a tree has the links that its redeclarations give it, and no others. -/
structure RedeclarationsLinked (d : Draft) (t : Tree) : Prop where
  first_unique : ∀ id, ∃! first, d.Declares id first
  isDefinition_eq : ∀ id, t.isDefinition id = d.tree.isDefinition id
  canonical_iff : ∀ id first, t.canonical? id = some first ↔ d.Declares id first ∧ d.IsRedeclared first
  definition_iff : ∀ id definition, t.definition? id = some definition ↔
    ∃ first, d.Declares id first ∧ d.IsRedeclared first ∧ d.Declares definition first ∧
      d.tree.isDefinition definition = true ∧ (d.tree.isDefinition first = true → definition = first)

/-- The tree of a unit in which these groups are linked. -/
def treeOfGroups (ctx : Context) (messages : Messages) (root : Node)
    (groups : List (NodeId × List NodeId)) : Tree :=
  let d := buildRoot ctx root
  { addTypeUses ctx d (linkConstructs d (linkReferences d (linkGroups (linkScopes d d.tree) groups))) with
    inclusions := messages.inclusions
    diagnostics := messages.diagnostics }

/-! ### Links of a draft -/

theorem Draft.chain_eq (d : Draft) :
    d.chain = d.previous.filterMap fun link =>
      ((d.lookup? link.2).filter fun target => decide (target ≠ link.1)).map fun target => (link.1, target) := by
  rw [Draft.chain]
  congr 1
  funext link
  cases htarget : d.lookup? link.2 with
  | none => simp [htarget]
  | some target => by_cases hself : target = link.1 <;> simp [htarget, hself]

theorem Draft.links_chain (d : Draft) : d.chain.Links = d.Redeclares := by
  funext id earlier
  rw [Chain.Links, d.chain_eq,
    lookup_filterMap_eq_some_iff fun id name => (d.lookup? name).filter fun target => decide (target ≠ id)]
  simp only [Option.filter_eq_some_iff, Option.filter_eq_none_iff, decide_eq_true_eq, Draft.Redeclares, and_assoc,
    not_not]
  grind

/-! ### The tree of a unit -/

section Linked

variable {d : Draft} (hac : Acyclic d.Redeclares)

/-- The order of the document is one of many. -/
theorem Draft.enumerates_redeclared (d : Draft) : d.Enumerates d.chain.redeclared :=
  ⟨nodup_firstByKey_id _, fun id => by rw [Chain.mem_redeclared, d.links_chain]⟩

theorem Draft.Enumerates.perm {order : List NodeId} (h : d.Enumerates order) : order.Perm d.chain.redeclared := by
  rw [List.perm_ext_iff_of_nodup h.nodup d.enumerates_redeclared.nodup]
  intro id
  rw [h.mem_iff, d.enumerates_redeclared.mem_iff]

include hac

theorem Draft.acyclic_chain : Acyclic d.chain.Links := d.links_chain.symm ▸ hac

theorem Draft.chased_eq_iff (id first : NodeId) : d.chain.chased id = first ↔ d.Declares id first := by
  rw [Chain.chased_eq_iff (Draft.acyclic_chain hac), d.links_chain]

theorem Draft.isRedeclared_iff (first : NodeId) :
    d.IsRedeclared first ↔ first ∈ d.chain.redeclared.map d.chain.chased := by
  rw [Chain.mem_map_chased_iff (Draft.acyclic_chain hac)]
  exact exists_congr fun other => and_congr_right fun _ => (Draft.chased_eq_iff hac other first).symm

theorem Draft.OneDefinition.definedOnce (hone : d.OneDefinition) {t : Tree}
    (hdefinition : t.isDefinition = d.tree.isDefinition) : d.chain.DefinedOnce t := by
  intro first
  simp only [hdefinition, Draft.chased_eq_iff hac]
  exact hone first

/-- Members of groups are nodes that were read. -/
theorem Draft.lt_size_of_isRedeclared (hd : d.Bounded) {k : NodeId} (h : d.IsRedeclared (d.chain.chased k)) :
    k < d.tree.size := by
  have hchain := Draft.chain_lt hd
  have hlinks := Draft.acyclic_chain hac
  by_cases hk : k ∈ d.chain.redeclared
  · exact Chain.redeclared_lt hchain hk
  · obtain ⟨node, hnode, heq⟩ := List.mem_map.mp ((Draft.isRedeclared_iff hac _).mp h)
    have hlt := Chain.chased_lt hchain (Chain.redeclared_lt hchain hnode)
    rwa [heq, Chain.chased_of_not_mem hlinks hk] at hlt

theorem Draft.groups_perm (order : TableOrder) :
    (d.groups order).Perm (d.chain.groupsIn (order.nodes d.chain.redeclared)) := by
  have hnodes := order.nodes_perm d.chain.redeclared
  have hfound := Chain.grouping_eq (Draft.acyclic_chain hac) (hnodes.nodup_iff.mpr d.enumerates_redeclared.nodup)
    fun id => hnodes.mem_iff.mp
  rw [← hfound.1]
  exact order.groups_perm _

/-- The order of the tables does not show in the links. -/
theorem linkRedeclarations_eq (hone : d.OneDefinition) {t : Tree} (hdefinition : t.isDefinition = d.tree.isDefinition)
    (order : TableOrder) :
    linkRedeclarations order d t = linkGroups t (d.chain.groupsIn d.chain.redeclared) :=
  Chain.linkGroups_eq (Draft.acyclic_chain hac) (hone.definedOnce hac hdefinition) (order.nodes_perm _)
    (Draft.groups_perm hac order)

/-- What linking the groups sets in a tree that has no such links yet. -/
theorem links_linkGroups (hd : d.Bounded) {t : Tree} (hsize : d.tree.size ≤ t.size) (hun : t.Unlinked)
    (k : NodeId) :
    let t' := linkGroups t (d.chain.groupsIn d.chain.redeclared)
    (d.IsRedeclared (d.chain.chased k) → t'.canonical? k = some (d.chain.chased k) ∧
      t'.definition? k = (d.chain.groupIn d.chain.redeclared (d.chain.chased k)).find? t.isDefinition) ∧
    (¬ d.IsRedeclared (d.chain.chased k) → t'.canonical? k = none ∧ t'.definition? k = none) := by
  intro t'
  rw [canonical?, definition?, Chain.node?_linkGroups_perm (Draft.acyclic_chain hac) (.refl _) (.refl _)]
  constructor
  · intro hk
    obtain ⟨n, hn⟩ := exists_node? ((Draft.lt_size_of_isRedeclared hac hd hk).trans_le hsize)
    have hnone : n.definition = none := by simpa [definition?, hn] using (hun k).2
    rw [if_pos ((Draft.isRedeclared_iff hac _).mp hk), hn]
    simp [UnitFacts.Node.joined, hnone]
  · intro hk
    rw [if_neg (mt (Draft.isRedeclared_iff hac _).mpr hk)]
    exact hun k

/-- Linking the groups links the nodes of a tree that has no such links yet. -/
theorem linked_linkGroups (hone : d.OneDefinition) (hd : d.Bounded) {t : Tree} (hsize : d.tree.size ≤ t.size)
    (hdefinition : t.isDefinition = d.tree.isDefinition) (hun : t.Unlinked) :
    RedeclarationsLinked d (linkGroups t (d.chain.groupsIn d.chain.redeclared)) := by
  have hgroup : ∀ k definition,
      (d.chain.groupIn d.chain.redeclared (d.chain.chased k)).find? t.isDefinition = some definition ↔
      d.Declares definition (d.chain.chased k) ∧ d.tree.isDefinition definition = true ∧
        (d.tree.isDefinition (d.chain.chased k) = true → definition = d.chain.chased k) := by
    intro k definition
    rw [← Draft.chased_eq_iff hac, ← hdefinition]
    exact Chain.find?_groupIn_eq_some_iff (Draft.acyclic_chain hac) (hone.definedOnce hac hdefinition) k definition
  refine ⟨fun id => ?_, fun id => ?_, fun id first => ?_, fun id definition => ?_⟩
  · refine ⟨d.chain.chased id, (Draft.chased_eq_iff hac id _).mp rfl, fun first h => ?_⟩
    exact ((Draft.chased_eq_iff hac id first).mpr h).symm
  · rw [isDefinition_linkGroups, hdefinition]
  · obtain ⟨hlinked, hbare⟩ := links_linkGroups hac hd hsize hun id
    rw [← Draft.chased_eq_iff hac]
    by_cases hid : d.IsRedeclared (d.chain.chased id)
    · rw [(hlinked hid).1, Option.some.injEq]
      exact ⟨fun heq => ⟨heq, heq ▸ hid⟩, fun h => h.1⟩
    · rw [(hbare hid).1]
      exact ⟨nofun, fun h => absurd (h.1 ▸ h.2) hid⟩
  · obtain ⟨hlinked, hbare⟩ := links_linkGroups hac hd hsize hun id
    simp only [← Draft.chased_eq_iff hac id, exists_eq_left']
    by_cases hid : d.IsRedeclared (d.chain.chased id)
    · rw [(hlinked hid).2, hgroup]
      exact ⟨fun h => ⟨hid, h⟩, fun h => h.2⟩
    · rw [(hbare hid).2]
      exact ⟨nofun, fun h => absurd h.1 hid⟩

end Linked

theorem RedeclarationsLinked.of_standing {d : Draft} {t t' : Tree} (h : RedeclarationsLinked d t)
    (hstanding : ∀ k, t'.standing k = t.standing k) : RedeclarationsLinked d t' where
  first_unique := h.first_unique
  isDefinition_eq id := by
    rw [isDefinition_eq_standing, hstanding, ← isDefinition_eq_standing, h.isDefinition_eq]
  canonical_iff id first := by
    rw [canonical?_eq_standing, hstanding, ← canonical?_eq_standing, h.canonical_iff]
  definition_iff id definition := by
    rw [definition?_eq_standing, hstanding, ← definition?_eq_standing, h.definition_iff]

/-! ### The objects of a unit -/

/-- The object declares a node and names the object of an earlier declaration by its id. -/
def Entry.Redeclares (e : Entry) (id : NodeId) (name : String) : Prop :=
  (e.role ≠ .unit ∧ e.role ≠ .statement) ∧ e.node = id ∧ e.attrs.previousDecl = some name

theorem Entry.previous?_eq_some_iff {e : Entry} {id : NodeId} {name : String} :
    e.previous? = some (id, name) ↔ e.Redeclares id name := by
  by_cases hrole : e.role = .unit ∨ e.role = .statement
  · have hnone : e.previous? = none := if_pos (by simpa using hrole)
    simp only [hnone, reduceCtorEq, false_iff]
    exact fun h => hrole.elim h.1.1 h.1.2
  · have hsome : e.previous? = e.attrs.previousDecl.map fun name => (e.node, name) := if_neg (by simpa using hrole)
    simp [hsome, Entry.Redeclares, not_or.mp hrole, and_comm]

/-- A node redeclares what the last object for it that names some other node names. -/
theorem redeclares_buildRoot_iff (ctx : Context) (attrs : Attrs) (inner : List Node) (id earlier : NodeId) :
    (buildRoot ctx (.mk attrs inner)).Redeclares id earlier ↔
      ∃ before e after name, unitInventory ctx attrs inner = before ++ e :: after ∧ e.Redeclares id name ∧
        (buildRoot ctx (.mk attrs inner)).lookup? name = some earlier ∧ earlier ≠ id ∧
        ∀ o ∈ after, ∀ other target, o.Redeclares id other →
          (buildRoot ctx (.mk attrs inner)).lookup? other = some target → target = id := by
  simp only [← Entry.previous?_eq_some_iff]
  rw [Draft.Redeclares, previous_buildRoot]
  -- the notes are the objects backwards, those that name nothing left out
  constructor
  · rintro ⟨newer, name, older, hprevious, hlookup, hne, hnewer⟩
    rw [List.reverse_eq_append_iff, List.reverse_cons, List.append_assoc, List.filterMap_eq_append_iff] at hprevious
    obtain ⟨before, rest, heq, -, hrest⟩ := hprevious
    rw [List.singleton_append, List.filterMap_eq_cons_iff] at hrest
    obtain ⟨skipped, e, after, rfl, -, he, hafter⟩ := hrest
    refine ⟨before ++ skipped, e, after, name, by simpa using heq, he, hlookup, hne, fun o ho other target h => ?_⟩
    refine hnewer other target (List.mem_reverse.mp ?_)
    rw [← hafter]
    exact List.mem_filterMap.mpr ⟨o, ho, h⟩
  · rintro ⟨before, e, after, name, heq, he, hlookup, hne, hafter⟩
    refine ⟨(after.filterMap Entry.previous?).reverse, name, (before.filterMap Entry.previous?).reverse, ?_, hlookup,
      hne, fun other target hother => ?_⟩
    · simp [heq, he]
    · obtain ⟨o, ho, h⟩ := List.mem_filterMap.mp (List.mem_reverse.mp hother)
      exact hafter o ho other target h

/-! ### The order of tables -/

section Order

variable (ctx : Context) (order : TableOrder)

/-- Nodes are read in the order in which they stand, whatever the order of tables. -/
theorem buildAll_order (nodes : List Node) :
    (∀ frame d, buildAll { ctx with order := order } frame nodes d = buildAll ctx frame nodes d) ∧
      ∀ kind merges id own beside seen d,
        buildTemplate { ctx with order := order } kind merges id own beside seen nodes d =
          buildTemplate ctx kind merges id own beside seen nodes d := by
  induction nodes using forest_induction with
  | nil =>
    refine ⟨fun frame d => ?_, fun kind merges id own beside seen d => ?_⟩
    · rw [buildAll_nil, buildAll_nil]
    · rw [buildTemplate_nil, buildTemplate_nil]
  | cons attrs inner rest ihInner ihRest =>
    have hnode : ∀ frame d,
        build { ctx with order := order } frame (.mk attrs inner) d = build ctx frame (.mk attrs inner) d := by
      intro frame d
      simp only [build, ihInner]
      rfl
    refine ⟨fun frame d => ?_, fun kind merges id own beside seen d => ?_⟩
    · rw [buildAll_cons, buildAll_cons, hnode, ihRest.1]
    · cases seen with
      | true => simp only [buildTemplate, hnode, ihRest.2]
      | false => simp only [buildTemplate, hnode, ihInner.1, ihRest.2]

theorem buildRoot_order (root : Node) : buildRoot { ctx with order := order } root = buildRoot ctx root := by
  obtain ⟨attrs, inner⟩ := root
  rw [buildRoot_eq, buildRoot_eq, (buildAll_order ctx order inner).1]
  rfl

end Order

theorem linked_treeOf (ctx : Context) (messages : Messages) (root : Node)
    (hac : Acyclic (buildRoot ctx root).Redeclares) (hone : (buildRoot ctx root).OneDefinition) :
    RedeclarationsLinked (buildRoot ctx root) (treeOf ctx messages root) := by
  have hsound := sound_buildRoot ctx root
  generalize hd : buildRoot ctx root = d at *
  have hun : (linkScopes d d.tree).Unlinked := by
    have hread : d.tree.Unlinked := hd ▸ unlinked_buildRoot ctx root
    exact hread.of_standing fun k => standing_linkScopes d d.tree k
  have hdefinition := isDefinition_linkScopes d d.tree
  have hlinked := linked_linkGroups hac hone hsound.bounded
    (growsTo_linkScopes hsound (GrowsTo.refl _)).size_le hdefinition hun
  refine hlinked.of_standing fun k => ?_
  have hrest : (d.linked ctx).standing k =
      (linkGroups (linkScopes d d.tree) (d.chain.groupsIn d.chain.redeclared)).standing k := by
    rw [Draft.linked, standing_addTypeUses, standing_linkConstructs, standing_linkReferences,
      linkRedeclarations_eq hac hone hdefinition]
  rw [treeOf, hd]
  exact hrest

/-- Whatever the order in which the groups are searched for and then linked, the tree is the same. -/
theorem treeOfGroups_eq_treeOf (ctx : Context) (messages : Messages) (root : Node)
    (hac : Acyclic (buildRoot ctx root).Redeclares) (hone : (buildRoot ctx root).OneDefinition)
    {order : List NodeId} (horder : (buildRoot ctx root).Enumerates order)
    {groups : List (NodeId × List NodeId)}
    (hgroups : groups.Perm ((buildRoot ctx root).chain.grouping order).groups) :
    treeOfGroups ctx messages root groups = treeOf ctx messages root := by
  rw [treeOfGroups, treeOf]
  generalize buildRoot ctx root = d at *
  have hlinks := Draft.acyclic_chain hac
  have hperm := horder.perm
  rw [(Chain.grouping_eq hlinks horder.nodup fun id => hperm.mem_iff.mp).1] at hgroups
  have hdefinition := isDefinition_linkScopes d d.tree
  rw [Chain.linkGroups_eq hlinks (hone.definedOnce hac hdefinition) hperm hgroups,
    ← linkRedeclarations_eq hac hone hdefinition ctx.order, Draft.linked]

/-- The order of the tables does not show in the tree. -/
theorem treeOf_order (ctx : Context) (order : TableOrder) (messages : Messages) (root : Node)
    (hac : Acyclic (buildRoot ctx root).Redeclares) (hone : (buildRoot ctx root).OneDefinition) :
    treeOf { ctx with order := order } messages root = treeOf ctx messages root := by
  rw [treeOf, treeOf, buildRoot_order]
  generalize buildRoot ctx root = d at *
  have hdefinition := isDefinition_linkScopes d d.tree
  rw [Draft.linked, Draft.linked, linkRedeclarations_eq hac hone hdefinition,
    linkRedeclarations_eq hac hone hdefinition]
  rfl

/-- The links to earlier declarations in a dump run in no circle and leave no choice of a definition. -/
def RedeclaresClearly (ctx : Context) (dump : Json) : Prop :=
  ∀ root, Node.ofJson? dump = some root →
    Acyclic (buildRoot ctx root).Redeclares ∧ (buildRoot ctx root).OneDefinition

/-- Of a dump that redeclares clearly there is one tree, whatever the order of the tables. -/
theorem importTree?_order {ctx : Context} {dump : Json} (h : RedeclaresClearly ctx dump) (order : TableOrder)
    (messages : Messages) : importTree? { ctx with order := order } messages dump = importTree? ctx messages dump := by
  rw [importTree?, importTree?]
  cases hroot : Node.ofJson? dump with
  | none => rfl
  | some root => simp only [treeOf_order ctx order messages root (h root hroot).1 (h root hroot).2]

/-- Reading a dump links the redeclarations in it, whatever the order in which they are gone through. -/
theorem importTree?_redeclarationsLinked (ctx : Context) (messages : Messages) (dump : Json) (root : Node)
    (hroot : Node.ofJson? dump = some root) (hcls : root.attrs.cls = unitClass)
    (hac : Acyclic (buildRoot ctx root).Redeclares) (hone : (buildRoot ctx root).OneDefinition) :
    ∃ t, importTree? ctx messages dump = some t ∧ RedeclarationsLinked (buildRoot ctx root) t ∧
      ∀ order groups, (buildRoot ctx root).Enumerates order →
        groups.Perm ((buildRoot ctx root).chain.grouping order).groups →
        treeOfGroups ctx messages root groups = t := by
  refine ⟨treeOf ctx messages root, ?_, linked_treeOf ctx messages root hac hone, ?_⟩
  · rw [importTree?, hroot]
    exact if_pos hcls
  · intro order groups horder hgroups
    exact treeOfGroups_eq_treeOf ctx messages root hac hone horder hgroups

/-- Links that lead to nodes read before run in no circle. -/
theorem Draft.acyclic_of_lt {d : Draft} (h : ∀ link ∈ d.chain, link.2 < link.1) : Acyclic d.Redeclares := by
  rw [← d.links_chain]
  have hlt : ∀ id last, Relation.TransGen d.chain.Links id last → last < id := by
    intro id last hleads
    induction hleads with
    | single hlink => exact h _ (mem_of_lookup_eq_some hlink)
    | tail _ hlink ih => exact (h _ (mem_of_lookup_eq_some hlink)).trans ih
  exact fun id hback => Nat.lt_irrefl id (hlt id id hback)

/-- The nodes of a tree that are definitions. -/
def definitionsIn (t : Tree) : List NodeId := (List.range t.size).filter t.isDefinition

theorem mem_definitionsIn (t : Tree) (id : NodeId) : id ∈ definitionsIn t ↔ t.isDefinition id = true := by
  rw [definitionsIn, List.mem_filter, List.mem_range]
  refine ⟨fun h => h.2, fun h => ⟨?_, h⟩⟩
  obtain ⟨n, hn, -⟩ := (Option.any_eq_true ..).mp h
  exact lt_size_of_node? hn

/-- Only the definitions in the tree have to be compared. -/
theorem Draft.oneDefinition_of_forall {d : Draft} (hac : Acyclic d.Redeclares)
    (h : ∀ a ∈ definitionsIn d.tree, ∀ b ∈ definitionsIn d.tree, d.chain.chased a = d.chain.chased b →
      a = b ∨ d.tree.isDefinition (d.chain.chased a) = true) : d.OneDefinition := by
  simp only [mem_definitionsIn] at h
  intro first
  by_cases hfirst : d.tree.isDefinition first = true
  · exact Or.inl hfirst
  · refine Or.inr fun a b ha hb hadef hbdef => ?_
    rw [← Draft.chased_eq_iff hac] at ha hb
    rcases h a hadef b hbdef (ha.trans hb.symm) with heq | hdefining
    · exact heq
    · exact absurd (ha ▸ hdefining) hfirst

theorem RedeclaresClearly.of_lt {ctx : Context} {dump : Json} {root : Node} (hroot : Node.ofJson? dump = some root)
    (hlt : ∀ link ∈ (buildRoot ctx root).chain, link.2 < link.1)
    (hone : ∀ a ∈ definitionsIn (buildRoot ctx root).tree, ∀ b ∈ definitionsIn (buildRoot ctx root).tree,
      (buildRoot ctx root).chain.chased a = (buildRoot ctx root).chain.chased b →
        a = b ∨ (buildRoot ctx root).tree.isDefinition ((buildRoot ctx root).chain.chased a) = true) :
    RedeclaresClearly ctx dump := by
  intro other hother
  obtain rfl := Option.some.inj (hroot.symm.trans hother)
  have hac := Draft.acyclic_of_lt hlt
  exact ⟨hac, Draft.oneDefinition_of_forall hac hone⟩

/-- A function that is declared three times, at first with a link to itself, and defined in between; a
template that is defined twice; and a variable with an earlier declaration that is not there. -/
def redeclaringUnit : List (String × Json) :=
  [("kind", .str "TranslationUnitDecl"), ("inner", .arr [
    .obj [("kind", .str "FunctionDecl"), ("id", .str "f1"), ("loc", .obj []), ("previousDecl", .str "f1")],
    .obj [("kind", .str "FunctionDecl"), ("id", .str "f2"), ("loc", .obj []), ("previousDecl", .str "f1"),
      ("inner", .arr [.obj [("kind", .str "CompoundStmt")]])],
    .obj [("kind", .str "FunctionDecl"), ("id", .str "f3"), ("loc", .obj []), ("previousDecl", .str "f2")],
    .obj [("kind", .str "FunctionTemplateDecl"), ("id", .str "t1"), ("loc", .obj []), ("inner", .arr [
      .obj [("kind", .str "FunctionDecl"), ("id", .str "p1"), ("loc", .obj []), ("inner", .arr [
        .obj [("kind", .str "CompoundStmt")]])]])],
    .obj [("kind", .str "FunctionTemplateDecl"), ("id", .str "t2"), ("loc", .obj []),
      ("previousDecl", .str "f3"), ("inner", .arr [
        .obj [("kind", .str "FunctionDecl"), ("loc", .obj []), ("previousDecl", .str "p1"), ("inner", .arr [
          .obj [("kind", .str "CompoundStmt")]])]])],
    .obj [("kind", .str "VarDecl"), ("id", .str "v"), ("loc", .obj []), ("previousDecl", .str "u")]])]

def redeclaringRoot : Node := .mk (.ofJson (.obj redeclaringUnit)) (innerOf redeclaringUnit)

theorem acyclic_redeclaringRoot : Acyclic (buildRoot { mainFile := "main.cpp" } redeclaringRoot).Redeclares := by
  apply Draft.acyclic_of_lt
  decide +kernel

theorem oneDefinition_redeclaringRoot : (buildRoot { mainFile := "main.cpp" } redeclaringRoot).OneDefinition := by
  apply Draft.oneDefinition_of_forall acyclic_redeclaringRoot
  decide +kernel

/-- The canonical declaration and the definition of each node, whichever order the tables have. -/
theorem importTree?_redeclarationsLinked_redeclaringUnit :
    let ctx : Context := { mainFile := "main.cpp" }
    Acyclic (buildRoot ctx redeclaringRoot).Redeclares ∧ (buildRoot ctx redeclaringRoot).OneDefinition ∧
      (∃ t, importTree? ctx {} (.obj redeclaringUnit) = some t ∧
        RedeclarationsLinked (buildRoot ctx redeclaringRoot) t ∧
        ∀ order groups, (buildRoot ctx redeclaringRoot).Enumerates order →
          groups.Perm ((buildRoot ctx redeclaringRoot).chain.grouping order).groups →
          treeOfGroups ctx {} redeclaringRoot groups = t) ∧
      ∀ order ∈ [TableOrder.ofDocument, .backwards],
        ((importTree? { ctx with order := order } {} (.obj redeclaringUnit)).map fun t =>
          (List.range t.size).map fun id => (t.canonical? id, t.definition? id)) =
          some [(none, none), (some 1, some 2), (some 1, some 2), (none, none), (some 1, some 2),
            (some 5, some 5), (none, none), (some 5, some 5), (none, none), (none, none)] := by
  intro ctx
  refine ⟨acyclic_redeclaringRoot, oneDefinition_redeclaringRoot, ?_,
    List.forall_mem_cons.mpr ⟨?_, List.forall_mem_singleton.mpr ?_⟩⟩
  · exact importTree?_redeclarationsLinked ctx {} (.obj redeclaringUnit) redeclaringRoot rfl rfl
      acyclic_redeclaringRoot oneDefinition_redeclaringRoot
  · decide +kernel
  · decide +kernel

end Dump

end UnitFacts
