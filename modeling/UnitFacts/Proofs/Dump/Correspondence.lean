import UnitFacts.Proofs.Dump.Decoration
import UnitFacts.Proofs.Tree.Walk

/-!
The tree of a unit has the shape of the document's outline. The walk of the tree, type references
aside, meets the unit and then the nodes of the outline in document order, which is the order of
their indices; the lexical parent of each is the node of the kept object around it. All other nodes
are loose and bare, type references excepted, which are leaves below nodes of the outline.
-/

namespace UnitFacts

open UnitFacts.Tree

namespace Tree

variable {t : Tree}

theorem isOwn_iff_shape (t : Tree) (id : NodeId) :
    t.isOwn id = true ↔ ∀ s, t.shape? id = some s → s.kind ≠ .typeRef := by
  rw [isOwn, kind?_eq_shape]
  cases t.shape? id <;> simp

theorem ownShape?_children {id : NodeId} {s : Shape} (h : t.ownShape? id = some s) :
    s.children = (t.children id).filter t.isOwn := by
  obtain ⟨s', hs', rfl⟩ := Option.map_eq_some_iff.mp h
  simp [children_eq_shape, hs']

theorem ownShape?_isOwn {id : NodeId} {s : Shape} (h : t.ownShape? id = some s)
    (hkind : s.kind ≠ .typeRef) :
    t.isOwn id = true := by
  obtain ⟨s', hs', rfl⟩ := Option.map_eq_some_iff.mp h
  simpa [isOwn, kind?_eq_shape, hs'] using hkind

/-- The nodes below a node in pre-order, itself included and type references left out. -/
def ownBelow (t : Tree) (path : List NodeId) (id : NodeId) : List NodeId :=
  ((t.visitsBelow (fun _ => true) t.size path id).map (·.node)).filter t.isOwn

section Walk

variable (ht : t.WellFormed) (hleaf : ∀ id, t.isOwn id = false → t.children id = [])
include ht hleaf

theorem ownBelow_of_not_isOwn (path : List NodeId) {id : NodeId} (h : t.isOwn id = false) :
    t.ownBelow path id = [] := by
  have hpos : 0 < t.size := Nat.lt_of_le_of_lt (Nat.zero_le _) ht.root_lt
  obtain ⟨fuel, hfuel⟩ := Nat.exists_eq_succ_of_ne_zero (Nat.ne_of_gt hpos)
  rw [ownBelow, hfuel, visitsBelow_succ, hleaf id h]
  simp [h]

/-- A node and then what stands below its own children. -/
theorem ownBelow_of_isOwn {path : List NodeId} {id : NodeId} (hpath : t.RootPath id path)
    (h : t.isOwn id = true) :
    t.ownBelow path id = id :: ((t.children id).filter t.isOwn).flatMap (t.ownBelow (id :: path)) := by
  have hbelow : t.visitsBelow (fun _ => true) t.size path id =
      ⟨id, path⟩ ::
        (t.children id).flatMap fun child => t.visitsBelow (fun _ => true) t.size (id :: path) child := by
    rw [ht.visitsBelow_eq _ t.size (t.size + 1) path id hpath (by omega) (by omega),
      visitsBelow_succ]
    simp
  have hchildren : ∀ children : List NodeId,
      ((children.flatMap fun child => t.visitsBelow (fun _ => true) t.size (id :: path) child).map
          (·.node)).filter t.isOwn = (children.filter t.isOwn).flatMap (t.ownBelow (id :: path)) := by
    intro children
    induction children with
    | nil => rfl
    | cons child rest ih =>
      rw [List.flatMap_cons, List.map_append, List.filter_append, ih, ← ownBelow]
      cases hchild : t.isOwn child with
      | true => rw [List.filter_cons_of_pos hchild, List.flatMap_cons]
      | false =>
        rw [List.filter_cons_of_neg (by simp [hchild]), t.ownBelow_of_not_isOwn ht hleaf _ hchild,
          List.nil_append]
  rw [ownBelow, hbelow, List.map_cons, List.filter_cons_of_pos h, hchildren]

end Walk

end Tree

namespace Dump

/-- The walk below depicted nodes meets them in document order. -/
theorem Depicts.flatMap_ownBelow {t : Tree} (ht : t.WellFormed)
    (hleaf : ∀ id, t.isOwn id = false → t.children id = []) {parent : NodeId} {outs : List Outline}
    {tops all : List NodeId} (h : Depicts t.ownShape? parent outs tops all) (path : List NodeId)
    (hpath : ∀ id ∈ tops, t.RootPath id path) : tops.flatMap (t.ownBelow path) = all := by
  induction h generalizing path with
  | nil => rfl
  | @cons parent id attrs kind spelling inner rest below tops inside others hlook hkind _ _ ihInner ihRest =>
    obtain ⟨hid, htops⟩ := List.forall_mem_cons.mp hpath
    have hown := ownShape?_isOwn hlook hkind
    have hbelow := ownShape?_children hlook
    simp only at hbelow
    have hinside : below.flatMap (t.ownBelow (id :: path)) = inside := by
      apply ihInner
      intro child hchild
      rw [hbelow] at hchild
      exact hid.child (List.mem_of_mem_filter hchild)
    rw [List.flatMap_cons, t.ownBelow_of_isOwn ht hleaf hid hown, ← hbelow, hinside,
      ihRest path htops]

/-- The walk of a tree whose root stands above depicted nodes meets the root and then those nodes. -/
theorem Depicts.walk_eq {t : Tree} (ht : t.WellFormed)
    (hleaf : ∀ id, t.isOwn id = false → t.children id = [])
    {name : String} {outs : List Outline} {tops all : List NodeId}
    (hunit : t.ownShape? t.root = some ⟨.unit, name, none, tops⟩)
    (h : Depicts t.ownShape? t.root outs tops all) :
    (t.allVisits.map (·.node)).filter t.isOwn = t.root :: all := by
  have htops : tops = (t.children t.root).filter t.isOwn := ownShape?_children hunit
  have hbelow := t.ownBelow_of_isOwn ht hleaf .root (ownShape?_isOwn hunit nofun)
  rw [← htops, h.flatMap_ownBelow ht hleaf] at hbelow
  · exact hbelow
  · intro id hid
    exact .child .root (List.mem_of_mem_filter (htops ▸ hid))

theorem Depicts.mem_all {look : NodeId → Option Shape} {parent : NodeId} {outs : List Outline}
    {tops all : List NodeId} (h : Depicts look parent outs tops all) {id : NodeId} (hid : id ∈ all) :
    ∃ s, look id = some s ∧ s.kind ≠ .typeRef ∧ s.parent.isSome := by
  induction h with
  | nil => cases hid
  | cons hlook hkind _ _ ihInner ihRest =>
    rcases List.mem_cons.mp hid with rfl | hid
    · exact ⟨_, hlook, hkind, rfl⟩
    · rcases List.mem_append.mp hid with hin | hrest
      · exact ihInner hin
      · exact ihRest hrest

namespace Decorated

variable {t t' : Tree} (h : Decorated t t')
include h

/-- No type reference stands below a loose node. -/
theorem shape?_eq_of_loose {id : NodeId} {s : Shape} (hs : t.shape? id = some s)
    (hparent : s.parent = none) :
    t'.shape? id = some s := by
  obtain ⟨uses, huses, -, hbare⟩ := h.old id (lt_size_of_shape? hs)
  have hnone : t.lexicalParent? id = none := by rw [lexicalParent?_eq_shape, hs, Option.bind_some, hparent]
  rw [huses, hbare hnone, hs, Option.map_some, Shape.adopt_nil]

variable (hown : ∀ id, id < t.size → t.isOwn id = true)
include hown

/-- The type references are the nodes that were added. -/
theorem isOwn_eq {id : NodeId} (hid : id < t'.size) : t'.isOwn id = decide (id < t.size) := by
  by_cases hlt : id < t.size
  · obtain ⟨uses, huses, -⟩ := h.old id hlt
    have hkind : t'.kind? id = t.kind? id := by
      rw [kind?_eq_shape, kind?_eq_shape, huses, Option.map_map]
      rfl
    have hold := hown id hlt
    rw [isOwn] at hold ⊢
    rw [hkind, hold, decide_eq_true hlt]
  · obtain ⟨spelling, owner, hshape, -⟩ := h.new id (Nat.le_of_not_lt hlt) hid
    simp [isOwn, kind?_eq_shape, hshape, hlt]

theorem ownShape?_eq (hchildren : ∀ id, ∀ child ∈ t.children id, child < t.size) {id : NodeId}
    (hid : id < t.size) : t'.ownShape? id = t.shape? id := by
  obtain ⟨uses, huses, hrange, -⟩ := h.old id hid
  have hle := h.size_le
  rw [ownShape?, huses, Option.map_map]
  cases hs : t.shape? id with
  | none => rfl
  | some s =>
    have hold : s.children.filter t'.isOwn = s.children := by
      rw [List.filter_eq_self]
      intro child hchild
      have hlt : child < t.size := hchildren id child (by simpa [children_eq_shape, hs] using hchild)
      rw [h.isOwn_eq hown (by lia), decide_eq_true hlt]
    have hnew : uses.filter t'.isOwn = [] := by
      rw [List.filter_eq_nil_iff]
      intro use huse
      have hr := hrange use huse
      simp [h.isOwn_eq hown hr.2, Nat.not_lt.mpr hr.1]
    simp [Shape.adopt, hold, hnew]

theorem shape?_of_not_isOwn {id : NodeId} (hid : t'.isOwn id = false) : ∃ spelling owner,
    t'.shape? id = some ⟨.typeRef, spelling, some owner, []⟩ ∧ (t.lexicalParent? owner).isSome := by
  have hlt : id < t'.size := by
    by_contra hge
    have hnone := (t'.shape?_eq_none_iff id).mpr (Nat.le_of_not_lt hge)
    simp [isOwn, kind?_eq_shape, hnone] at hid
  rw [h.isOwn_eq hown hlt, decide_eq_false_iff_not] at hid
  exact h.new id (Nat.le_of_not_lt hid) hlt

theorem children_of_not_isOwn (id : NodeId) (hid : t'.isOwn id = false) : t'.children id = [] := by
  obtain ⟨spelling, owner, hshape, -⟩ := h.shape?_of_not_isOwn hown hid
  simp [children_eq_shape, hshape]

end Decorated

theorem grown_buildRoot (ctx : Context) (attrs : Attrs) (inner : List Node) :
    ∃ tops kept, Grown (Tree.start ctx.mainFile) (buildRoot ctx (.mk attrs inner)).tree 0
      (unitOutline ctx attrs inner) tops kept := by
  have hstart : (startDraft ctx attrs).tree = Tree.start ctx.mainFile := Draft.tree_register _ attrs 0
  have hcursor : (startDraft ctx attrs).cursor = LocCursor.afterAttrs {} attrs :=
    Draft.cursor_register _ attrs 0
  have hunit : (startDraft ctx attrs).tree.kind? 0 = some .unit := by
    rw [hstart]
    rfl
  obtain ⟨-, tops, kept, hgrown⟩ :=
    (drawsOutline ctx inner).row ⟨0, 0, false⟩ (startDraft ctx attrs) .unit hunit
  rw [hstart, hcursor] at hgrown
  rw [buildRoot_eq]
  exact ⟨tops, kept, hgrown⟩

/-- A tree whose nodes are the unit, those of an outline, type references and loose nodes. Below the
unit stand `tops`, and `kept` are all nodes of the outline in document order. -/
structure Corresponds (t : Tree) (mainFile : String) (outs : List Outline)
    (tops kept : List NodeId) : Prop where
  unit : t.ownShape? t.root = some ⟨.unit, mainFile, none, tops⟩
  depicts : Depicts t.ownShape? t.root outs tops kept
  /-- Pre-order is document order. -/
  walk : (t.allVisits.map (·.node)).filter t.isOwn = t.root :: kept
  /-- Document order is the order of the node table. -/
  increasing : (t.root :: kept).Pairwise (· < ·)
  loose : ∀ id, id < t.size → t.isOwn id = true → id ∉ t.root :: kept →
    t.lexicalParent? id = none ∧ t.children id = [] ∧ ∀ parent, id ∉ t.children parent
  typeRef : ∀ id, t.isOwn id = false →
    t.children id = [] ∧ ∃ owner ∈ kept, t.lexicalParent? id = some owner ∧ id ∈ t.children owner

section Assembly

variable {mainFile : String} {t t' : Tree} {outs : List Outline} {tops kept : List NodeId}
  (hgrown : Grown (Tree.start mainFile) t 0 outs tops kept)
include hgrown

theorem shape?_unit : t.shape? 0 = some ⟨.unit, mainFile, none, tops⟩ := by
  rw [hgrown.adopted]
  rfl

/-- A node that was read is the unit, a node of the outline, or loose and bare. -/
theorem unit_or_kept_or_loose {id : NodeId} (hid : id < t.size) :
    id = 0 ∨ id ∈ kept ∨
      ∃ s, t.shape? id = some s ∧ s.kind ≠ .typeRef ∧ s.parent = none ∧ s.children = [] := by
  by_cases hzero : id = 0
  · exact Or.inl hzero
  · by_cases hkept : id ∈ kept
    · exact Or.inr (Or.inl hkept)
    · exact Or.inr (Or.inr (hgrown.loose id (Nat.pos_of_ne_zero hzero) hid hkept))

theorem isOwn_of_grown {id : NodeId} (hid : id < t.size) : t.isOwn id = true := by
  rw [isOwn_iff_shape]
  intro s hs
  rcases unit_or_kept_or_loose hgrown hid with rfl | hkept | ⟨s', hs', hkind, -⟩
  · rw [shape?_unit hgrown] at hs
    cases hs
    exact nofun
  · obtain ⟨s', hs', hkind, -⟩ := hgrown.depicts.mem_all hkept
    cases hs.symm.trans hs'
    exact hkind
  · cases hs.symm.trans hs'
    exact hkind

theorem mem_kept_of_lexicalParent? {id : NodeId} (h : (t.lexicalParent? id).isSome) :
    id ∈ kept := by
  rw [lexicalParent?_eq_shape] at h
  have hid : id < t.size := by
    cases hs : t.shape? id with
    | none => simp [hs] at h
    | some s => exact lt_size_of_shape? hs
  rcases unit_or_kept_or_loose hgrown hid with rfl | hkept | ⟨s, hs, -, hparent, -⟩
  · simp [shape?_unit hgrown] at h
  · exact hkept
  · simp [hs, hparent] at h

theorem corresponds_of_grown (hnested : t.Nested) (hdec : Decorated t t') (ht : t'.Sound) :
    Corresponds t' mainFile outs tops kept := by
  have hown : ∀ id, id < t.size → t.isOwn id = true := fun id hid => isOwn_of_grown hgrown hid
  have hchildren : ∀ id, ∀ child ∈ t.children id, child < t.size :=
    fun id child hc => Nested.lt_size ((hnested.mem_children_iff id child).mp hc)
  have hroot := ht.nested.root_eq
  have hleaf := hdec.children_of_not_isOwn hown
  have hdepicts : Depicts t'.ownShape? t'.root outs tops kept := by
    rw [hroot]
    exact hgrown.depicts.of_eq fun id hid => hdec.ownShape?_eq hown hchildren (hgrown.range id hid).2
  have hunit : t'.ownShape? t'.root = some ⟨.unit, mainFile, none, tops⟩ := by
    rw [hroot]
    exact (hdec.ownShape?_eq hown hchildren hnested.size_pos).trans (shape?_unit hgrown)
  refine ⟨hunit, hdepicts, hdepicts.walk_eq ht.wellFormed hleaf hunit, ?_, ?_, ?_⟩
  · rw [hroot, List.pairwise_cons]
    exact ⟨fun id hid => (hgrown.range id hid).1, hgrown.sorted⟩
  · intro id hid hisOwn hnot
    rw [hroot, List.mem_cons, not_or] at hnot
    rw [hdec.isOwn_eq hown hid, decide_eq_true_eq] at hisOwn
    rcases unit_or_kept_or_loose hgrown hisOwn with hzero | hkept | ⟨s, hs, -, hparent, hnil⟩
    · exact absurd hzero hnot.1
    · exact absurd hkept hnot.2
    · have hshape := hdec.shape?_eq_of_loose hs hparent
      have hnone : t'.lexicalParent? id = none := by
        rw [lexicalParent?_eq_shape, hshape, Option.bind_some, hparent]
      refine ⟨hnone, by simp [children_eq_shape, hshape, hnil], ?_⟩
      intro parent hmem
      rw [ht.nested.mem_children_iff, hnone] at hmem
      cases hmem
  · intro id hid
    obtain ⟨spelling, owner, hshape, howner⟩ := hdec.shape?_of_not_isOwn hown hid
    have hparent : t'.lexicalParent? id = some owner := by
      rw [lexicalParent?_eq_shape, hshape, Option.bind_some]
    exact ⟨hleaf id hid, owner, mem_kept_of_lexicalParent? hgrown howner, hparent,
      (ht.nested.mem_children_iff owner id).mpr hparent⟩

end Assembly

/-- The tree of every unit has the shape of its outline. -/
theorem importTree?_corresponds (ctx : Context) (messages : Messages)
    (members : List (String × Json))
    (h : Json.lookup "kind" members = some (.str unitClass)) :
    ∃ t tops kept, importTree? ctx messages (.obj members) = some t ∧
      Corresponds t ctx.mainFile (unitOutline ctx (.ofJson (.obj members)) (innerOf members)) tops kept := by
  obtain ⟨tops, kept, hgrown⟩ := grown_buildRoot ctx (.ofJson (.obj members)) (innerOf members)
  have hread := sound_buildRoot ctx (.mk (.ofJson (.obj members)) (innerOf members))
  have hdec :=
    decorated_linked ctx (mentionsAttached_buildRoot ctx (.ofJson (.obj members)) (innerOf members))
  exact ⟨_, tops, kept, (importTree?_obj ctx messages h).2, corresponds_of_grown hgrown hread.tree_sound.nested
    ⟨hdec.size_le, hdec.old, hdec.new⟩ (sound_treeOf ctx messages _)⟩

/-- A class the compiler made up, and a function template with its parameter, its pattern, whose body
is kept, and an instance, which is not. -/
def templateUnit : List (String × Json) :=
  [("kind", .str "TranslationUnitDecl"), ("inner", .arr [
    .obj [("kind", .str "CXXRecordDecl"), ("isImplicit", .bool true), ("name", .str "type_info"),
      ("loc", .obj [])],
    .obj [("kind", .str "FunctionTemplateDecl"), ("name", .str "f"), ("loc", .obj []), ("inner", .arr [
      .obj [("kind", .str "TemplateTypeParmDecl"), ("name", .str "T"), ("loc", .obj [])],
      .obj [("kind", .str "FunctionDecl"), ("name", .str "f"), ("loc", .obj []), ("inner", .arr [
        .obj [("kind", .str "CompoundStmt")]])],
      .obj [("kind", .str "FunctionDecl"), ("name", .str "f"), ("loc", .obj []), ("inner", .arr [
        .obj [("kind", .str "CompoundStmt")]])]])]])]

theorem importTree?_corresponds_templateUnit :
    let ctx : Context := { mainFile := "main.cpp" }
    Json.lookup "kind" templateUnit = some (.str unitClass) ∧
      (∃ t tops kept, importTree? ctx {} (.obj templateUnit) = some t ∧
        Corresponds t "main.cpp" (unitOutline ctx (.ofJson (.obj templateUnit)) (innerOf templateUnit)) tops kept) ∧
      ((importTree? ctx {} (.obj templateUnit)).map fun t =>
        t.allVisits.map fun visit => (visit.node, t.kind? visit.node)) =
        some [(0, some .unit), (2, some .functionTemplate), (3, some .templateTypeParameter),
          (4, some .compoundStmt)] := by
  intro ctx
  refine ⟨rfl, importTree?_corresponds ctx {} templateUnit rfl, ?_⟩
  decide +kernel

end Dump

end UnitFacts
