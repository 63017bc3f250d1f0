import UnitFacts.Proofs.Dump.TypeNames
import UnitFacts.Proofs.Source.Tokens

/-!
The type references of a unit. A declaration writes its type in a stretch of source. Each token there that is the
last part of a name in the type gets one type reference below the declaration, if the name stands for a type; if
several names would do, the first of them counts. There are no other type references. Neither the order of the
table of types nor that of the redeclarations matters.
-/

namespace UnitFacts

open UnitFacts.Tree

namespace Dump

/-- The type references right below a node. -/
def typeRefsBelow (t : Tree) (id : NodeId) : List NodeId :=
  (t.children id).filter fun child => t.kind? child = some .typeRef

/-- A node stands on a token of a file. The main file goes by its own path. -/
def StandsOn (ctx : Context) (t : Tree) (file : String) (token : Token) (id : NodeId) : Prop :=
  ∃ loc, t.location? id = some loc ∧ loc.path = (if ctx.isMainFile file then ctx.mainFile else file) ∧
    loc.line = UInt32.ofNat token.line ∧ loc.col = UInt32.ofNat token.col

/-- A token stands for the type of the first of these names that ends in it and stands for a type. -/
def IsUseOf (t : Tree) (names : List String) (token : Token) (target : NodeId) : Prop :=
  ∃ before name after, names = before ++ name :: after ∧ shortName name = token.text ∧ Resolves t name target ∧
    ∀ other ∈ before, shortName other = token.text → ∀ id, ¬ Resolves t other id

/-- The type references below a declaration stand one to one on the tokens of its stretch of source in which names
of its type end that stand for types, and refer to these types. -/
structure MentionPlaced (ctx : Context) (t : Tree) (m : Mention) (uses : List (NodeId × Token)) : Prop where
  below : uses.map Prod.fst = typeRefsBelow t m.owner
  nodes_nodup : (uses.map Prod.fst).Nodup
  tokens_nodup : (uses.map Prod.snd).Nodup
  mem_iff : ∀ token, token ∈ uses.map Prod.snd ↔ token ∈ ctx.sources.spans m.file m.start m.stop ∧
    ∃ name ∈ m.names, shortName name = token.text ∧ ∃ target, Resolves t name target
  stands : ∀ use ∈ uses, StandsOn ctx t m.file use.2 use.1
  refers : ∀ use ∈ uses, ∃ target, t.referenced? use.1 = some target ∧ IsUseOf t m.names use.2 target

/-- The type references in the tree of a unit: those of its declarations and no others. -/
structure TypesReferenced (ctx : Context) (t : Tree) (entries : List Entry) (types : List (String × NodeId)) :
    Prop where
  holds : Holds t entries
  resolve_iff : ∀ name target, resolveType? types name = some target ↔ Resolves t name target
  ambiguous : ∀ name first second, ¬ IsTypeName t name → IsTypeName t first → IsTypeName t second →
    EndsIn first name → EndsIn second name → first ≠ second → resolveType? types name = none
  placed : ∀ e ∈ entries, ∀ m, e.mention? ctx = some m →
    m.owner = e.node ∧ (t.lexicalParent? m.owner).isSome ∧ ∃ uses, MentionPlaced ctx t m uses
  bare : ∀ id, (∀ e ∈ entries, ∀ m, e.mention? ctx = some m → e.node ≠ id) → typeRefsBelow t id = []

/-! ### Adding type references -/

section Adding

variable (ctx : Context)

theorem children_addTypeUse (t : Tree) {use : TypeUse} (howner : use.owner < t.size) (k : NodeId) :
    (addTypeUse ctx t use).children k = if k = use.owner then t.children use.owner ++ [t.size] else t.children k := by
  rw [addTypeUse, children_eq_shape, shape?_setReferenced, shape?_placeAt, ← children_eq_shape,
    children_attach t use.owner .typeRef (t.spelling use.target) howner]

/-- Every owner gets the new nodes of its uses as children, in their order. -/
theorem children_foldl_addTypeUse {uses : List TypeUse} {t : Tree} (howner : ∀ use ∈ uses, use.owner < t.size)
    (k : NodeId) : (uses.foldl (addTypeUse ctx) t).children k =
      t.children k ++ ((uses.zipIdx t.size).filter fun entry => entry.1.owner = k).map Prod.snd := by
  induction uses generalizing t with
  | nil => simp
  | cons use rest ih =>
    obtain ⟨huse, hrest⟩ := List.forall_mem_cons.mp howner
    have hsize := size_addTypeUse ctx t use
    rw [List.foldl_cons, ih (fun other hother => by have := hrest other hother; lia), hsize,
      children_addTypeUse ctx t huse, List.zipIdx_cons, List.filter_cons]
    by_cases hk : k = use.owner
    · simp [hk]
    · simp [hk, Ne.symm hk]

theorem isPrefix_files_addTypeUse (t : Tree) (use : TypeUse) : t.files <+: (addTypeUse ctx t use).files :=
  (growsTo_withFile ctx (t.attach use.owner .typeRef (t.spelling use.target)).2 use.file).isPrefix_files

/-- A file keeps its number when others come after it. -/
theorem file_of_isPrefix {files files' : List SourceFile} (h : files <+: files') {index : FileId} {file : SourceFile}
    (hfile : files[index]? = some file) : files'[index]? = some file := by
  obtain ⟨hlt, rfl⟩ := List.getElem?_eq_some_iff.mp hfile
  exact List.prefix_iff_getElem?.mp h index hlt

theorem location?_of_isPrefix {t t' : Tree} {id : NodeId} {loc : Location}
    (hposition : (t'.node? id).bind (·.position) = (t.node? id).bind (·.position)) (hfiles : t.files <+: t'.files)
    (h : t.location? id = some loc) : t'.location? id = some loc := by
  have hbind : ∀ t : Tree, t.location? id = ((t.node? id).bind (·.position)).bind fun position =>
      (t.files[position.file]?).bind fun file =>
        some ⟨file.path, position.line, position.col, file.isMain, file.isSystem⟩ := by
    intro t
    rw [Option.bind_assoc]
    rfl
  rw [hbind] at h ⊢
  obtain ⟨position, hold, hrest⟩ := Option.bind_eq_some_iff.mp h
  obtain ⟨file, hfile, hloc⟩ := Option.bind_eq_some_iff.mp hrest
  rw [hposition, hold, Option.bind_some, file_of_isPrefix hfiles hfile, Option.bind_some, hloc]

/-- The main file is the first of the table. -/
def MainFirst (t : Tree) : Prop := t.files[0]? = some ⟨ctx.mainFile, true, false⟩

variable {ctx}

theorem MainFirst.of_isPrefix {t t' : Tree} (h : MainFirst ctx t) (hfiles : t.files <+: t'.files) : MainFirst ctx t' :=
  file_of_isPrefix hfiles h

theorem exists_file_withFile {t : Tree} (h : MainFirst ctx t) (path : String) :
    ∃ file, (withFile ctx t path).files[fileIndex ctx (withFile ctx t path) path]? = some file ∧
      file.path = if ctx.isMainFile path then ctx.mainFile else path := by
  unfold fileIndex withFile
  split
  · exact ⟨_, h, rfl⟩
  · obtain ⟨index, hindex⟩ := t.exists_fileId?_addFile path (ctx.headers.isSystem path)
    obtain ⟨hlt, hpath, -⟩ := List.findIdx?_eq_some_iff_getElem.mp hindex
    rw [hindex, Option.getD_some, List.getElem?_eq_getElem hlt]
    exact ⟨_, rfl, by simpa using hpath⟩

/-- A use has become a node. -/
structure TypeUse.StandsAt (ctx : Context) (t : Tree) (use : TypeUse) (id : NodeId) : Prop where
  kind?_eq : t.kind? id = some .typeRef
  referenced?_eq : t.referenced? id = some use.target
  standsOn : StandsOn ctx t use.file use.token id

theorem standsAt_addTypeUse {t : Tree} (h : MainFirst ctx t) {use : TypeUse} (howner : use.owner < t.size) :
    use.StandsAt ctx (addTypeUse ctx t use) t.size := by
  have hnode : (addTypeUse ctx t use).node? t.size = some (typeUseNode ctx t use) := by
    rw [node?_addTypeUse ctx t howner, if_pos rfl]
  have hattach : (t.attach use.owner .typeRef (t.spelling use.target)).2.files = t.files := rfl
  have hfiles : (addTypeUse ctx t use).files = (withFile ctx t use.file).files := files_withFile ctx hattach use.file
  obtain ⟨file, hfile, hpath⟩ := exists_file_withFile h use.file
  refine ⟨?_, ?_,
    ⟨file.path, UInt32.ofNat use.token.line, UInt32.ofNat use.token.col, file.isMain, file.isSystem⟩,
    ?_, hpath, rfl, rfl⟩
  · rw [kind?, hnode]
    rfl
  · rw [referenced?, hnode]
    rfl
  · simp [location?, hnode, typeUseNode, hfiles, hfile]

theorem isPrefix_files_foldl_addTypeUse (uses : List TypeUse) (t : Tree) :
    t.files <+: (uses.foldl (addTypeUse ctx) t).files := by
  induction uses generalizing t with
  | nil => exact List.prefix_refl _
  | cons use rest ih => exact (isPrefix_files_addTypeUse ctx t use).trans (ih _)

theorem TypeUse.StandsAt.foldl_addTypeUse {t : Tree} {use : TypeUse} {id : NodeId} (h : use.StandsAt ctx t id)
    {uses : List TypeUse} (howner : ∀ use ∈ uses, use.owner < t.size) :
    use.StandsAt ctx (uses.foldl (addTypeUse ctx) t) id := by
  have hid := lt_size_of_kind? h.kind?_eq
  obtain ⟨loc, hloc, hplace⟩ := h.standsOn
  refine ⟨?_, (referenced?_foldl_addTypeUse howner hid).trans h.referenced?_eq, loc, ?_, hplace⟩
  · rw [kind?_eq_label, label?_foldl_addTypeUse howner hid, ← kind?_eq_label, h.kind?_eq]
  · exact location?_of_isPrefix (bind_node?_foldl_addTypeUse howner hid _ fun _ _ => rfl)
      (isPrefix_files_foldl_addTypeUse uses t) hloc

/-- Every use stands at its number. -/
theorem standsAt_foldl_addTypeUse {t : Tree} (h : MainFirst ctx t) {uses : List TypeUse}
    (howner : ∀ use ∈ uses, use.owner < t.size) {use : TypeUse} {id : NodeId}
    (hmem : (use, id) ∈ uses.zipIdx t.size) :
    use.StandsAt ctx (uses.foldl (addTypeUse ctx) t) id := by
  induction uses generalizing t with
  | nil => cases hmem
  | cons first rest ih =>
    obtain ⟨hfirst, hrest⟩ := List.forall_mem_cons.mp howner
    have hsize := size_addTypeUse ctx t first
    have hrest' : ∀ use ∈ rest, use.owner < (addTypeUse ctx t first).size := fun other hother => by
      have := hrest other hother
      lia
    rw [List.zipIdx_cons, ← hsize] at hmem
    rcases List.mem_cons.mp hmem with heq | hlater
    · cases heq
      -- the node is new, and the uses that follow only add others behind it
      exact (standsAt_addTypeUse h hfirst).foldl_addTypeUse hrest'
    · exact ih (h.of_isPrefix (isPrefix_files_addTypeUse ctx t first)) hrest' hlater

end Adding

/-! ### Which tokens are uses -/

section Choosing

variable {ctx : Context} {types : List (String × NodeId)} {mentions : List Mention} {m : Mention}

/-- The use of a name on a token, if the name ends in it and stands for a type. -/
def typeUse? (types : List (String × NodeId)) (m : Mention) (token : Token) (name : String) : Option TypeUse :=
  if shortName name = token.text then (resolveType? types name).map fun target => ⟨m.owner, target, m.file, token⟩
  else none

/-- The uses of a mention on a token are those of its names, in their order. -/
theorem find?_mentionUses (hapart : Token.Apart (ctx.sources.spans m.file m.start m.stop)) {token : Token}
    (htoken : token ∈ ctx.sources.spans m.file m.start m.stop) :
    (mentionUses ctx types m).find? (fun use => decide ((use.owner, use.token.offset) = (m.owner, token.offset))) =
      m.names.findSome? (typeUse? types m token) := by
  unfold mentionUses
  rw [List.find?_flatMap]
  congr 1
  funext name
  unfold typeUse?
  cases resolveType? types name with
  | none => simp
  | some target =>
    rw [List.find?_map, List.find?_filter]
    -- no other token of the stretch has this offset, so the search finds this one or none
    by_cases htext : shortName name = token.text
    · rw [if_pos htext, find?_eq_some_of_unique htoken]
      · rfl
      · simp [htext]
      · intro other hother hsame
        simp only [Function.comp_apply, Prod.mk.injEq, true_and, Bool.decide_and, Bool.and_eq_true,
          decide_eq_true_eq] at hsame
        exact hapart token htoken other hother hsame.2
    · rw [if_neg htext, List.find?_eq_none.mpr]
      · rfl
      · intro other hother hsame
        simp only [Function.comp_apply, Prod.mk.injEq, true_and, Bool.decide_and, Bool.and_eq_true,
          decide_eq_true_eq] at hsame
        exact htext (hapart token htoken other hother hsame.2 ▸ hsame.1.symm)

/-- The uses below the owner of a mention: on each token that of the first name that has one. -/
theorem mem_typeUsesIn_iff (hm : m ∈ mentions) (howners : ∀ o ∈ mentions, o.owner = m.owner → o = m)
    (hapart : Token.Apart (ctx.sources.spans m.file m.start m.stop)) {use : TypeUse} (howner : use.owner = m.owner) :
    use ∈ typeUsesIn ctx types mentions ↔ use.token ∈ ctx.sources.spans m.file m.start m.stop ∧
      m.names.findSome? (typeUse? types m use.token) = some use := by
  have hfind : (mentions.flatMap (mentionUses ctx types)).find?
        (fun other => decide ((other.owner, other.token.offset) = (use.owner, use.token.offset))) =
      (mentionUses ctx types m).find?
        (fun other => decide ((other.owner, other.token.offset) = (use.owner, use.token.offset))) := by
    rw [List.find?_flatMap, findSome?_eq_of_mem hm]
    intro o ho
    -- uses of other mentions have other owners
    by_cases hsame : o = m
    · exact Or.inr (by rw [hsame])
    · refine Or.inl (List.find?_eq_none.mpr fun other hother heq => hsame (howners o ho ?_))
      rw [decide_eq_true_eq, Prod.mk.injEq] at heq
      rw [← (of_mem_mentionUses hother).1, heq.1, howner]
  rw [typeUsesIn, mem_firstByKey_iff, hfind, howner]
  constructor
  · rintro ⟨-, hfound⟩
    have htoken := (of_mem_mentionUses (List.mem_of_find?_eq_some hfound)).2.1
    rw [find?_mentionUses hapart htoken] at hfound
    exact ⟨htoken, hfound⟩
  · rintro ⟨htoken, hfound⟩
    rw [find?_mentionUses hapart htoken]
    exact ⟨List.not_mem_nil, hfound⟩

section Resolving

variable {t : Tree} (hresolve : ∀ name target, resolveType? types name = some target ↔ Resolves t name target)
include hresolve

theorem typeUse?_eq_some_iff (token : Token) (name : String) (use : TypeUse) :
    typeUse? types m token name = some use ↔
      shortName name = token.text ∧
        ∃ target, Resolves t name target ∧ ⟨m.owner, target, m.file, token⟩ = use := by
  unfold typeUse?
  split
  · rename_i htext
    simp only [Option.map_eq_some_iff, hresolve, htext, true_and]
  · rename_i htext
    simp [htext]

theorem typeUse?_eq_none_iff (token : Token) (name : String) :
    typeUse? types m token name = none ↔ (shortName name = token.text → ∀ target, ¬ Resolves t name target) := by
  simp only [Option.eq_none_iff_forall_ne_some, ne_eq, typeUse?_eq_some_iff hresolve, not_and, not_exists]
  exact ⟨fun h htext target hres => h _ htext target hres rfl,
    fun h use htext target hres => absurd hres (h htext target)⟩

/-- The use that a token gets is that of the type it stands for. -/
theorem findSome?_typeUse?_eq_some_iff (token : Token) (use : TypeUse) :
    m.names.findSome? (typeUse? types m token) = some use ↔
      ∃ target, IsUseOf t m.names token target ∧ ⟨m.owner, target, m.file, token⟩ = use := by
  simp only [List.findSome?_eq_some_iff, typeUse?_eq_some_iff hresolve, typeUse?_eq_none_iff hresolve, IsUseOf]
  constructor
  · rintro ⟨before, name, after, hnames, ⟨htext, target, hres, huse⟩, hfirst⟩
    exact ⟨target, ⟨before, name, after, hnames, htext, hres, hfirst⟩, huse⟩
  · rintro ⟨target, ⟨before, name, after, hnames, htext, hres, hfirst⟩, huse⟩
    exact ⟨before, name, after, hnames, ⟨htext, target, hres, huse⟩, hfirst⟩

/-- A token stands for a type as soon as one of the names does that end in it. -/
theorem exists_isUseOf_iff (token : Token) :
    (∃ target, IsUseOf t m.names token target) ↔
      ∃ name ∈ m.names, shortName name = token.text ∧ ∃ target, Resolves t name target := by
  have hsome : (m.names.findSome? (typeUse? types m token)).isSome ↔
      ∃ name ∈ m.names, (typeUse? types m token name).isSome := List.findSome?_isSome_iff
  simpa only [Option.isSome_iff_exists, findSome?_typeUse?_eq_some_iff hresolve, typeUse?_eq_some_iff hresolve,
    exists_comm (α := TypeUse), exists_and_left, exists_eq', and_true] using hsome

end Resolving

end Choosing

/-! ### The tree of a unit -/

/-- All type references of a draft, with the nodes that they become. -/
def placedUses (ctx : Context) (d : Draft) (types : List (String × NodeId)) : List (TypeUse × NodeId) :=
  (typeUsesIn ctx types d.mentions.reverse).zipIdx d.tree.size

/-- The type references of a draft for one owner. -/
def usesBelow (ctx : Context) (d : Draft) (types : List (String × NodeId)) (owner : NodeId) :
    List (TypeUse × NodeId) :=
  (placedUses ctx d types).filter fun entry => entry.1.owner = owner

section Unit

variable (ctx : Context) (messages : Messages) (attrs : Attrs) (inner : List Node)
  (groups : List (NodeId × List NodeId)) (types : List (String × NodeId)) (k : NodeId)

theorem children_treeIn : (treeIn ctx messages (.mk attrs inner) groups types).children k =
    (buildRoot ctx (.mk attrs inner)).tree.children k ++
      (usesBelow ctx (buildRoot ctx (.mk attrs inner)) types k).map Prod.snd := by
  have hfold := children_foldl_addTypeUse ctx
    (owner_lt_of_mem_typeUsesIn ctx groups types (sound_buildRoot ctx (.mk attrs inner)).bounded) k
  rw [children_resolved, size_resolved] at hfold
  exact hfold

theorem mainFirst_resolved : MainFirst ctx ((buildRoot ctx (.mk attrs inner)).resolved groups) := by
  rw [MainFirst, files_resolved]
  exact file_of_isPrefix (sound_buildRoot ctx (.mk attrs inner)).grown.isPrefix_files rfl

variable {ctx attrs inner types}

theorem standsAt_treeIn {use : TypeUse} {id : NodeId}
    (h : (use, id) ∈ placedUses ctx (buildRoot ctx (.mk attrs inner)) types) :
    use.StandsAt ctx (treeIn ctx messages (.mk attrs inner) groups types) id := by
  rw [placedUses, ← size_resolved _ groups] at h
  obtain ⟨hkind, hreferenced, hstandsOn⟩ := standsAt_foldl_addTypeUse (mainFirst_resolved ctx attrs inner groups)
    (owner_lt_of_mem_typeUsesIn ctx groups types (sound_buildRoot ctx (.mk attrs inner)).bounded) h
  exact ⟨hkind, hreferenced, hstandsOn⟩

variable {k}

theorem kind?_treeIn_ne_typeRef (hk : k < (buildRoot ctx (.mk attrs inner)).tree.size) :
    (treeIn ctx messages (.mk attrs inner) groups types).kind? k ≠ some .typeRef := by
  rw [← List.mem_range, ← numbered_unitInventory] at hk
  obtain ⟨e, he, rfl⟩ := List.mem_map.mp hk
  obtain ⟨hmem, hnew⟩ := List.mem_filter.mp he
  rw [(holds_treeIn ctx messages attrs inner groups types).kind?_eq e hmem]
  intro hkind
  rcases List.mem_cons.mp hmem with rfl | hinside
  · cases hkind
  · exact (((takes_buildRoot ctx attrs inner).regular e hinside).kind_ne hnew).1 (Option.some.inj hkind)

theorem typeRefsBelow_treeIn (k : NodeId) :
    typeRefsBelow (treeIn ctx messages (.mk attrs inner) groups types) k =
      (usesBelow ctx (buildRoot ctx (.mk attrs inner)) types k).map Prod.snd := by
  have hold : ((buildRoot ctx (.mk attrs inner)).tree.children k).filter
      (fun child => (treeIn ctx messages (.mk attrs inner) groups types).kind? child = some .typeRef) = [] := by
    refine List.filter_eq_nil_iff.mpr fun child hchild => ?_
    have hparent := ((sound_buildRoot ctx (.mk attrs inner)).tree_sound.nested.mem_children_iff k child).mp hchild
    simpa using kind?_treeIn_ne_typeRef messages groups (Nested.lt_size hparent)
  rw [typeRefsBelow, children_treeIn, List.filter_append, hold, List.nil_append, List.filter_eq_self]
  intro child hchild
  obtain ⟨⟨use, id⟩, huse, rfl⟩ := List.mem_map.mp hchild
  simpa using (standsAt_treeIn messages groups (List.mem_filter.mp huse).1).kind?_eq

theorem scoped_resolved : ((buildRoot ctx (.mk attrs inner)).resolved groups).Scoped := by
  have hsound := sound_buildRoot ctx (.mk attrs inner)
  have hscopes := growsTo_linkScopes hsound (GrowsTo.refl _)
  refine (hscopes.sound hsound.tree_sound).isScoped.of_eq ?_ fun k => ?_
  · exact Nat.le_of_eq (size_eq_of_unscoped_eq fun k => by rw [label?_resolved])
  · rw [semanticParent?_eq_label, label?_resolved, ← semanticParent?_eq_label]

theorem label?_treeIn_of_lt (hk : k < ((buildRoot ctx (.mk attrs inner)).resolved groups).size) :
    (treeIn ctx messages (.mk attrs inner) groups types).label? k =
      ((buildRoot ctx (.mk attrs inner)).resolved groups).label? k := by
  rw [label?_treeIn, label?_linkedIn ctx groups types (sound_buildRoot ctx (.mk attrs inner)).bounded
    (size_resolved _ groups ▸ hk), label?_resolved]

theorem isType_treeIn_iff (k : NodeId) : IsType (treeIn ctx messages (.mk attrs inner) groups types) k ↔
    IsType ((buildRoot ctx (.mk attrs inner)).resolved groups) k := by
  by_cases hk : k < ((buildRoot ctx (.mk attrs inner)).resolved groups).size
  · rw [IsType, kindIn, kind?_eq_label, lexicalParent?_eq_label, label?_treeIn_of_lt messages groups hk,
      ← kind?_eq_label, ← lexicalParent?_eq_label]
    rfl
  · refine iff_of_false (fun h => ?_) fun h => hk h.lt_size
    -- a node that was added later is a type reference, which declares no type
    obtain ⟨kind, hkind, htype⟩ := (Option.any_eq_true ..).mp h.1
    have hnew := kind?_linkedIn_of_le ctx (mentionsAttached_buildRoot ctx attrs inner) groups types
      (size_resolved _ groups ▸ Nat.le_of_not_lt hk) hkind
    rw [hnew] at htype
    cases htype

/-- Type references do not change what a name stands for. -/
theorem resolves_treeIn (name : String) (target : NodeId) :
    Resolves (treeIn ctx messages (.mk attrs inner) groups types) name target ↔
      Resolves ((buildRoot ctx (.mk attrs inner)).resolved groups) name target := by
  refine resolves_congr (isType_treeIn_iff messages groups) (fun id hid => ?_) name target
  exact (scoped_resolved groups).qualifiedName_eq_of_label_eq (fun k => label?_treeIn_of_lt messages groups) hid.lt_size

theorem resolveType?_eq_some_iff_treeIn
    (htypes : types.Perm (typeTable ((buildRoot ctx (.mk attrs inner)).resolved groups))) (name : String)
    (target : NodeId) : resolveType? types name = some target ↔
      Resolves (treeIn ctx messages (.mk attrs inner) groups types) name target := by
  rw [resolveType?_eq_some_iff htypes, resolves_treeIn]

theorem Entry.eq_of_mention? {e : Entry} {m : Mention} (h : e.mention? ctx = some m) :
    m.owner = e.node ∧ e.role = .declaration ∧ e.loose = false := by
  unfold Entry.mention? at h
  split at h
  · rename_i hrole
    simp only [Bool.and_eq_true, decide_eq_true_eq, Bool.not_eq_true'] at hrole
    exact ⟨owner_mention? h, hrole⟩
  · cases h

theorem mem_mentions_iff (m : Mention) :
    m ∈ (buildRoot ctx (.mk attrs inner)).mentions.reverse ↔
      ∃ e ∈ unitInventory ctx attrs inner, e.mention? ctx = some m := by
  rw [mentions_buildRoot, List.reverse_reverse, List.mem_filterMap]

/-- No two declarations write their types for one node. -/
theorem eq_of_owner_eq {e : Entry} (he : e ∈ unitInventory ctx attrs inner) {m : Mention}
    (hm : e.mention? ctx = some m) {o : Mention} (ho : o ∈ (buildRoot ctx (.mk attrs inner)).mentions.reverse)
    (howner : o.owner = m.owner) : o = m := by
  obtain ⟨other, hother, hmention⟩ := (mem_mentions_iff o).mp ho
  obtain ⟨hnode, hrole, -⟩ := Entry.eq_of_mention? hm
  obtain ⟨hnode', hrole', -⟩ := Entry.eq_of_mention? hmention
  have heq : other = e := Entry.eq_of_node_eq hother he (by simp [Entry.isNew, hrole']) (by simp [Entry.isNew, hrole])
    (hnode'.symm.trans (howner.trans hnode))
  rw [heq, hm] at hmention
  exact (Option.some.inj hmention).symm

theorem map_fst_placedUses (d : Draft) :
    (placedUses ctx d types).map Prod.fst = typeUsesIn ctx types d.mentions.reverse := List.zipIdx_map_fst _ _

theorem usesBelow_sublist (d : Draft) (owner : NodeId) :
    (usesBelow ctx d types owner).Sublist (placedUses ctx d types) := List.filter_sublist

theorem nodup_nodes_usesBelow (d : Draft) (owner : NodeId) : ((usesBelow ctx d types owner).map Prod.snd).Nodup := by
  refine List.Nodup.sublist ((usesBelow_sublist d owner).map _) ?_
  rw [placedUses, List.zipIdx_map_snd]
  exact List.nodup_range'

theorem nodup_tokens_usesBelow (d : Draft) (owner : NodeId) :
    ((usesBelow ctx d types owner).map fun entry => entry.1.token).Nodup := by
  have hkeys : ((placedUses ctx d types).map fun entry => (entry.1.owner, entry.1.token.offset)).Nodup := by
    have hnodup := (nodup_map_firstByKey (fun use : TypeUse => (use.owner, use.token.offset)) []
      (d.mentions.reverse.flatMap (mentionUses ctx types))).1
    rw [← typeUsesIn, ← map_fst_placedUses, List.map_map] at hnodup
    exact hnodup
  have hbelow := hkeys.sublist ((usesBelow_sublist d owner).map _)
  -- below one owner the keys differ in their offsets alone
  have hoffsets : (usesBelow ctx d types owner).map (fun entry => (entry.1.owner, entry.1.token.offset)) =
      ((usesBelow ctx d types owner).map fun entry => entry.1.token).map fun token => (owner, token.offset) := by
    rw [List.map_map]
    refine List.map_congr_left fun entry hentry => ?_
    have howner : entry.1.owner = owner := by simpa using (List.mem_filter.mp hentry).2
    rw [howner]
    rfl
  rw [hoffsets] at hbelow
  exact hbelow.of_map

section Placed

variable {e : Entry} (he : e ∈ unitInventory ctx attrs inner) {m : Mention} (hm : e.mention? ctx = some m)
  (hapart : Token.Apart (ctx.sources.spans m.file m.start m.stop)) {t : Tree}
  (hresolve : ∀ name target, resolveType? types name = some target ↔ Resolves t name target)
include he hm hapart hresolve

/-- The type references of a declaration are on the tokens of its stretch of source that stand for types. -/
theorem mem_typeUsesIn_buildRoot (use : TypeUse) (howner : use.owner = m.owner) :
    use ∈ typeUsesIn ctx types (buildRoot ctx (.mk attrs inner)).mentions.reverse ↔
      use.token ∈ ctx.sources.spans m.file m.start m.stop ∧
        ∃ target, IsUseOf t m.names use.token target ∧ ⟨m.owner, target, m.file, use.token⟩ = use := by
  rw [mem_typeUsesIn_iff ((mem_mentions_iff m).mpr ⟨e, he, hm⟩) (fun o => eq_of_owner_eq he hm) hapart howner,
    findSome?_typeUse?_eq_some_iff hresolve]

theorem of_mem_usesBelow {entry : TypeUse × NodeId}
    (h : entry ∈ usesBelow ctx (buildRoot ctx (.mk attrs inner)) types m.owner) :
    entry.1.token ∈ ctx.sources.spans m.file m.start m.stop ∧ entry.1.file = m.file ∧
      IsUseOf t m.names entry.1.token entry.1.target := by
  obtain ⟨hplaced, howner⟩ := List.mem_filter.mp h
  obtain ⟨htoken, target, huse, heq⟩ := (mem_typeUsesIn_buildRoot he hm hapart hresolve entry.1
    (of_decide_eq_true howner)).mp (List.fst_mem_of_mem_zipIdx hplaced)
  rw [← heq]
  exact ⟨htoken, rfl, huse⟩

theorem mem_tokens_usesBelow_iff (token : Token) :
    token ∈ (usesBelow ctx (buildRoot ctx (.mk attrs inner)) types m.owner).map (fun entry => entry.1.token) ↔
      token ∈ ctx.sources.spans m.file m.start m.stop ∧
        ∃ name ∈ m.names, shortName name = token.text ∧ ∃ target, Resolves t name target := by
  rw [← exists_isUseOf_iff hresolve]
  constructor
  · intro h
    obtain ⟨entry, hentry, rfl⟩ := List.mem_map.mp h
    obtain ⟨htoken, -, huse⟩ := of_mem_usesBelow he hm hapart hresolve hentry
    exact ⟨htoken, _, huse⟩
  · rintro ⟨htoken, target, huse⟩
    have hmem := (mem_typeUsesIn_buildRoot he hm hapart hresolve ⟨m.owner, target, m.file, token⟩ rfl).mpr
      ⟨htoken, target, huse, rfl⟩
    rw [← map_fst_placedUses] at hmem
    obtain ⟨entry, hentry, hfst⟩ := List.mem_map.mp hmem
    have howner : entry.1.owner = m.owner := by rw [hfst]
    exact List.mem_map.mpr ⟨entry, List.mem_filter.mpr ⟨hentry, decide_eq_true howner⟩, by rw [hfst]⟩

end Placed

theorem mentionPlaced_treeIn {e : Entry} (he : e ∈ unitInventory ctx attrs inner) {m : Mention}
    (hm : e.mention? ctx = some m) (hapart : Token.Apart (ctx.sources.spans m.file m.start m.stop))
    (htypes : types.Perm (typeTable ((buildRoot ctx (.mk attrs inner)).resolved groups))) :
    MentionPlaced ctx (treeIn ctx messages (.mk attrs inner) groups types) m
      ((usesBelow ctx (buildRoot ctx (.mk attrs inner)) types m.owner).map fun entry => (entry.2, entry.1.token)) := by
  have hresolve := resolveType?_eq_some_iff_treeIn messages groups htypes
  refine ⟨?_, ?_, ?_, fun token => ?_, fun use huse => ?_, fun use huse => ?_⟩
  · rw [typeRefsBelow_treeIn, List.map_map]
    rfl
  · rw [List.map_map]
    exact nodup_nodes_usesBelow _ m.owner
  · rw [List.map_map]
    exact nodup_tokens_usesBelow _ m.owner
  · rw [List.map_map]
    exact mem_tokens_usesBelow_iff he hm hapart hresolve token
  · obtain ⟨entry, hentry, rfl⟩ := List.mem_map.mp huse
    have hstands := (standsAt_treeIn messages groups (List.mem_filter.mp hentry).1).standsOn
    rwa [(of_mem_usesBelow he hm hapart hresolve hentry).2.1] at hstands
  · obtain ⟨entry, hentry, rfl⟩ := List.mem_map.mp huse
    exact ⟨entry.1.target, (standsAt_treeIn messages groups (List.mem_filter.mp hentry).1).referenced?_eq,
      (of_mem_usesBelow he hm hapart hresolve hentry).2.2⟩

/-- A node for which no type is noted has no type references. -/
theorem typeRefsBelow_eq_nil {k : NodeId}
    (h : ∀ e ∈ unitInventory ctx attrs inner, ∀ m, e.mention? ctx = some m → e.node ≠ k) :
    typeRefsBelow (treeIn ctx messages (.mk attrs inner) groups types) k = [] := by
  rw [typeRefsBelow_treeIn, List.map_eq_nil_iff, usesBelow, List.filter_eq_nil_iff]
  intro entry hentry howner
  obtain ⟨m, hm, hsame⟩ := exists_mention_of_mem_typeUsesIn (List.fst_mem_of_mem_zipIdx hentry)
  obtain ⟨e, he, hmention⟩ := (mem_mentions_iff m).mp hm
  exact h e he m hmention ((Entry.eq_of_mention? hmention).1.symm.trans (hsame.trans (of_decide_eq_true howner)))

/-- The order of the table of types does not matter. -/
theorem treeIn_eq_of_perm (htypes : types.Perm (typeTable ((buildRoot ctx (.mk attrs inner)).resolved groups))) :
    treeIn ctx messages (.mk attrs inner) groups types = treeIn ctx messages (.mk attrs inner) groups
      (typeTable ((buildRoot ctx (.mk attrs inner)).resolved groups)) := by
  have hresolve : resolveType? types =
      resolveType? (typeTable ((buildRoot ctx (.mk attrs inner)).resolved groups)) := by
    funext name
    refine Option.ext fun target => ?_
    rw [resolveType?_eq_some_iff htypes, resolveType?_eq_some_iff (List.Perm.refl _)]
  have huses : mentionUses ctx types =
      mentionUses ctx (typeTable ((buildRoot ctx (.mk attrs inner)).resolved groups)) := by
    unfold mentionUses
    rw [hresolve]
  rw [treeIn, treeIn, Draft.linkedIn, Draft.linkedIn, typeUsesIn, typeUsesIn, huses]

end Unit

/-- Reading a dump places the type references of its declarations, whatever the order of the table of types and of the
groups of redeclarations. -/
theorem importTree?_typesReferenced (mainFile : String) (headers : SystemHeaders) (cwd : Place)
    (files : FileTable String) (order : TableOrder) (messages : Messages) (members : List (String × Json))
    (hunit : Json.lookup "kind" members = some (.str unitClass)) :
    let ctx : Context := ⟨mainFile, headers, .ofFiles cwd files, order⟩
    let root : Node := .mk (.ofJson (.obj members)) (innerOf members)
    let tableOf := fun groups => typeTable ((buildRoot ctx root).resolved groups)
    importTree? ctx messages (.obj members) = some (treeIn ctx messages root ((buildRoot ctx root).groups order)
        (tableOf ((buildRoot ctx root).groups order))) ∧
      ∀ groups types, types.Perm (tableOf groups) →
        treeIn ctx messages root groups types = treeIn ctx messages root groups (tableOf groups) ∧
        TypesReferenced ctx (treeIn ctx messages root groups types)
          (unitInventory ctx (.ofJson (.obj members)) (innerOf members)) types := by
  intro ctx root tableOf
  refine ⟨(importTree?_obj ctx messages hunit).2.trans (congrArg some (treeOf_eq_treeIn ..)), ?_⟩
  intro groups types htypes
  have hholds := holds_treeIn ctx messages (.ofJson (.obj members)) (innerOf members) groups types
  have hresolve := resolveType?_eq_some_iff_treeIn messages groups htypes
  refine ⟨treeIn_eq_of_perm messages groups htypes, hholds, hresolve, ?_, fun e he m hm => ?_,
    fun id => typeRefsBelow_eq_nil messages groups⟩
  · intro name first second hname hfirst hsecond hends hends' hne
    refine Option.eq_none_iff_forall_ne_some.mpr fun target htarget => ?_
    exact not_resolves_of_ambiguous hname hfirst hsecond hends hends' hne target ((hresolve name target).mp htarget)
  · obtain ⟨howner, hrole, hloose⟩ := Entry.eq_of_mention? hm
    have hapart := Sources.apart_spans_ofFiles cwd files m.file m.start m.stop
    refine ⟨howner, ?_, _, mentionPlaced_treeIn messages groups he hm hapart htypes⟩
    rw [howner]
    exact (hholds.attached_iff e he (by simp [hrole])).mpr hloose

/-- A variable with a type of four names: that of a template; a qualified one; one in which a single qualified name
ends; and one in which two do. -/
def typedUnit : List (String × Json) :=
  [("kind", .str "TranslationUnitDecl"), ("inner", .arr [
    .obj [("kind", .str "NamespaceDecl"), ("name", .str "ns"), ("loc", .obj []), ("inner", .arr [
      .obj [("kind", .str "CXXRecordDecl"), ("name", .str "Item"), ("loc", .obj [])],
      .obj [("kind", .str "CXXRecordDecl"), ("name", .str "Box"), ("loc", .obj [])]])],
    .obj [("kind", .str "NamespaceDecl"), ("name", .str "io"), ("loc", .obj []), ("inner", .arr [
      .obj [("kind", .str "CXXRecordDecl"), ("name", .str "Box"), ("loc", .obj [])]])],
    .obj [("kind", .str "ClassTemplateDecl"), ("name", .str "Pack"), ("loc", .obj [])],
    .obj [("kind", .str "VarDecl"), ("name", .str "p"),
      ("loc", .obj [("file", .str "main.cpp"), ("line", .num (.int 1)), ("col", .num (.int 27)),
        ("offset", .num (.int 26))]),
      ("range", .obj [("begin", .obj [("col", .num (.int 1)), ("offset", .num (.int 0))]),
        ("end", .obj [("col", .num (.int 27)), ("offset", .num (.int 26))])]),
      ("type", .obj [("qualType", .str "Pack<ns::Item, Item, Box>")])]])]

def typedText : FileTable String := ⟨[], [(["main.cpp"], "Pack<Item, ns::Item, Box> p;")]⟩

/-- The three type references of the variable, with what they refer to. -/
theorem importTree?_typesReferenced_typedUnit :
    let ctx : Context := { mainFile := "main.cpp", sources := .ofFiles [] typedText }
    let root : Node := .mk (.ofJson (.obj typedUnit)) (innerOf typedUnit)
    let tableOf := fun groups => typeTable ((buildRoot ctx root).resolved groups)
    Json.lookup "kind" typedUnit = some (.str unitClass) ∧
      (importTree? ctx {} (.obj typedUnit) = some (treeIn ctx {} root ((buildRoot ctx root).groups ctx.order)
        (tableOf ((buildRoot ctx root).groups ctx.order))) ∧
      ∀ groups types, types.Perm (tableOf groups) →
        treeIn ctx {} root groups types = treeIn ctx {} root groups (tableOf groups) ∧
        TypesReferenced ctx (treeIn ctx {} root groups types)
          (unitInventory ctx (.ofJson (.obj typedUnit)) (innerOf typedUnit)) types) ∧
      ((importTree? ctx {} (.obj typedUnit)).map fun t =>
        (typeRefsBelow t 7).map fun id => ((t.location? id).map (·.col), t.referenced? id)) =
        some [(some 1, some 6), (some 6, some 2), (some 16, some 2)] := by
  intro ctx root tableOf
  refine ⟨rfl, importTree?_typesReferenced "main.cpp" ⟨[]⟩ [] typedText .ofDocument {} typedUnit rfl, ?_⟩
  decide +kernel

end Dump

end UnitFacts
