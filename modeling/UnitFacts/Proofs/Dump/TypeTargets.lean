import UnitFacts.Proofs.Dump.TypeText
import UnitFacts.Proofs.Dump.TypeUses

/-!
What type references refer to. A type reference stands on the last part of the qualified name of its target. Where
the names of declarations have no `::`, that part is the name of the target, if it has one that does not begin in a
colon. A type without a name goes by the qualified name of the scope around it, so a name of that scope refers to it.
-/

namespace UnitFacts

open UnitFacts.Tree

namespace Dump

/-- A type reference stands on a token in the written type of a declaration and refers to a type whose qualified name
ends in the token. -/
structure RefersByName (ctx : Context) (t : Tree) (entries : List Entry) (ref : NodeId) (token : Token)
    (target : NodeId) : Prop where
  written : ∃ e ∈ entries, ∃ m, e.mention? ctx = some m ∧ token ∈ ctx.sources.spans m.file m.start m.stop ∧
    StandsOn ctx t m.file token ref
  refers : t.referenced? ref = some target
  isType : IsType t target
  text_eq : token.text = shortName (t.qualifiedName target)
  spelling_eq_iff : t.spelling target = token.text ↔
    t.spelling target ≠ "" ∧ (t.spelling target).toList.head? ≠ some ':'

/-! ### Qualified names -/

/-- Joined names end in the last of them. -/
theorem joinNames_concat (names : List String) (name : String) :
    joinNames (names ++ [name]) = name ∨ EndsIn (joinNames (names ++ [name])) name := by
  by_cases hempty : names = []
  · rw [hempty]
    exact Or.inl rfl
  · rw [joinNames_append_singleton hempty, String.append_assoc]
    exact Or.inr ⟨_, rfl⟩

section Names

variable {t : Tree} (ht : t.Scoped) {id : NodeId}
include ht

/-- The qualified name of a node with a name is that name or ends in it. -/
theorem qualifiedName_eq_or_endsIn (hid : id < t.size) (hunit : t.isUnit id = false) (hname : t.spelling id ≠ "") :
    t.qualifiedName id = t.spelling id ∨ EndsIn (t.qualifiedName id) (t.spelling id) := by
  have hsegments : ∃ outer, t.nameSegments id = t.spelling id :: outer := by
    rw [ht.nameSegments_eq hid]
    simp [hunit, hname]
  obtain ⟨outer, houter⟩ := hsegments
  rw [qualifiedName_eq_joinNames, houter, List.reverse_cons]
  exact joinNames_concat outer.reverse (t.spelling id)

/-- The name of a type without `::` is the last part of its qualified name, if that is a part at all. -/
theorem shortName_qualifiedName (hid : id < t.size) (hunit : t.isUnit id = false) (hname : t.spelling id ≠ "")
    (hpart : IsPart (t.spelling id)) : shortName (t.qualifiedName id) = t.spelling id :=
  shortName_of_endsIn hpart (qualifiedName_eq_or_endsIn ht hid hunit hname)

end Names

/-- A name ends in the last part of the qualified name of what it stands for. -/
theorem Resolves.shortName_eq {t : Tree} {name : String} {target : NodeId} (h : Resolves t name target)
    (hname : IsTrimmed name) : shortName (t.qualifiedName target) = shortName name := by
  rcases h with hexact | ⟨-, qualified, hends, hfirst, -⟩
  · rw [hexact.name_eq]
  · rw [hfirst.name_eq, hname.shortName_eq hends]

theorem Resolves.isType {t : Tree} {name : String} {target : NodeId} (h : Resolves t name target) :
    IsType t target := by
  rcases h with hexact | ⟨-, qualified, -, hfirst, -⟩
  · exact hexact.isType
  · exact hfirst.isType

/-- A node is a declaration and not the unit. -/
def IsDeclared (t : Tree) (id : NodeId) : Prop := t.kindIn NodeKind.isDeclaration id = true ∧ t.isUnit id = false

theorem IsType.isDeclared {t : Tree} {id : NodeId} (h : IsType t id) : IsDeclared t id := by
  obtain ⟨kind, hkind, htype⟩ := (Option.any_eq_true ..).mp h.1
  have hkinds : kind.isDeclaration = true ∧ kind ≠ .unit := by
    revert htype
    cases kind <;> decide
  constructor
  · simp [kindIn, hkind, hkinds.1]
  · simp [isUnit, kindIn, hkind, hkinds.2]

/-- A type without `::` in its name bears the short name of the name that stands for it, if it bears any and that does
not begin in a colon. -/
theorem Resolves.spelling_eq_iff {t : Tree} (ht : t.Scoped) {name : String} {target : NodeId}
    (h : Resolves t name target) (hname : IsTrimmed name) (hplain : ¬ [':', ':'] <:+: (t.spelling target).toList) :
    t.spelling target = shortName name ↔
      t.spelling target ≠ "" ∧ (t.spelling target).toList.head? ≠ some ':' := by
  constructor
  · intro hspelling
    rw [hspelling]
    exact ⟨hname.shortName_ne_empty, ((isPart_iff _).mp hname.isPart_shortName).1⟩
  · rintro ⟨hne, hhead⟩
    rw [← h.shortName_eq hname]
    exact (shortName_qualifiedName ht h.isType.lt_size h.isType.isDeclared.2 hne
      ((isPart_iff _).mpr ⟨hhead, hplain⟩)).symm

/-! ### The tree of a unit -/

theorem size_foldl_addTypeUse (ctx : Context) (uses : List TypeUse) (t : Tree) :
    (uses.foldl (addTypeUse ctx) t).size = t.size + uses.length := by
  induction uses generalizing t with
  | nil => rfl
  | cons use rest ih =>
    rw [List.foldl_cons, ih, size_addTypeUse, List.length_cons]
    omega

theorem names_mention? {ctx : Context} {attrs : Attrs} {kind : NodeKind} {owner : NodeId}
    {first? name? last? : Option Loc} {m : Mention} (h : mention? ctx attrs kind owner first? name? last? = some m) :
    m.names = ((writtenType? kind attrs.qualType).map typeNames).getD [] := by
  unfold mention? at h
  grind

/-- The names of a mention are names in a type. -/
theorem Entry.isTrimmed_of_mem_names {ctx : Context} {e : Entry} {m : Mention} (h : e.mention? ctx = some m)
    {name : String} (hname : name ∈ m.names) : IsTrimmed name := by
  unfold Entry.mention? at h
  split at h
  · rw [names_mention? h] at hname
    cases htype : writtenType? e.kind e.attrs.qualType with
    | none => simp [htype] at hname
    | some type =>
      have hmem : name ∈ typeNames type := by simpa [htype] using hname
      exact isTrimmed_of_mem_typeNames hmem
  · cases h

section Unit

variable {ctx : Context} {attrs : Attrs} {inner : List Node} {messages : Messages}

/-- Every type reference of a unit is one of the uses that the pass for them places. -/
theorem exists_placedUse {groups : List (NodeId × List NodeId)} {types : List (String × NodeId)} {ref : NodeId}
    (href : (treeIn ctx messages (.mk attrs inner) groups types).kind? ref = some .typeRef) :
    ∃ use, (use, ref) ∈ placedUses ctx (buildRoot ctx (.mk attrs inner)) types := by
  have hge : (buildRoot ctx (.mk attrs inner)).tree.size ≤ ref := by
    by_contra hlt
    exact kind?_treeIn_ne_typeRef messages groups (Nat.lt_of_not_le hlt) href
  have hlt : ref < ((buildRoot ctx (.mk attrs inner)).linkedIn ctx groups types).size := lt_size_of_kind? href
  rw [Draft.linkedIn, size_foldl_addTypeUse, size_resolved] at hlt
  have hindex := Nat.sub_lt_left_of_lt_add hge hlt
  exact ⟨_, List.mk_mem_zipIdx_iff_le_and_getElem?_sub.mpr ⟨hge, List.getElem?_eq_getElem hindex⟩⟩

/-- The name of a declared node of a unit is that of a declaration on the inventory. -/
theorem IsDeclared.exists_entry {id : NodeId} (h : IsDeclared (treeOf ctx messages (.mk attrs inner)) id) :
    ∃ o ∈ unitInventory ctx attrs inner, o.declares = true ∧
      (treeOf ctx messages (.mk attrs inner)).spelling id = o.attrs.name := by
  obtain ⟨kind, hkind, hdeclaration⟩ := (Option.any_eq_true ..).mp h.1
  have hunit : kind ≠ .unit := by
    rintro rfl
    have hisUnit := h.2
    simp [isUnit, kindIn, hkind] at hisUnit
  have hholds := holds_treeOf ctx messages attrs inner
  obtain ⟨o, ho, hnew, rfl⟩ := hholds.exists_entry id kind hkind (by
    rintro rfl
    cases hdeclaration)
  obtain rfl : o.kind = kind := Option.some.inj ((hholds.kind?_eq o ho).symm.trans hkind)
  have hdeclares := Entry.declares_of_isDeclaration ho hnew hdeclaration hunit
  exact ⟨o, ho, hdeclares, spelling_treeOf ctx messages attrs inner ho hdeclares⟩

theorem refersByName_treeOf
    (hplain : ∀ e ∈ unitInventory ctx attrs inner, e.declares = true → ¬ [':', ':'] <:+: e.attrs.name.toList)
    {ref : NodeId} (href : (treeOf ctx messages (.mk attrs inner)).kind? ref = some .typeRef) :
    ∃ token target, RefersByName ctx (treeOf ctx messages (.mk attrs inner)) (unitInventory ctx attrs inner) ref token
      target := by
  have hscoped := (sound_treeOf ctx messages (.mk attrs inner)).isScoped
  have hspelling : ∀ id, IsType (treeOf ctx messages (.mk attrs inner)) id →
      ¬ [':', ':'] <:+: ((treeOf ctx messages (.mk attrs inner)).spelling id).toList := by
    intro id htype
    obtain ⟨o, ho, hdeclares, hname⟩ := htype.isDeclared.exists_entry
    exact hname ▸ hplain o ho hdeclares
  rw [treeOf_eq_treeIn] at *
  obtain ⟨use, huse⟩ := exists_placedUse href
  have hstands := standsAt_treeIn messages ((buildRoot ctx (.mk attrs inner)).groups ctx.order) huse
  obtain ⟨m, hm, hmember⟩ := List.mem_flatMap.mp (mem_of_mem_firstByKey _ _ _ (List.fst_mem_of_mem_zipIdx huse))
  obtain ⟨-, htoken, hfile, name, hname, htext, hresolve⟩ := of_mem_mentionUses hmember
  obtain ⟨e, he, hmention⟩ := (mem_mentions_iff m).mp hm
  have hresolves := (resolveType?_eq_some_iff_treeIn messages _ (List.Perm.refl _) name use.target).mp hresolve
  have htrimmed := Entry.isTrimmed_of_mem_names hmention hname
  refine ⟨use.token, use.target, ⟨e, he, m, hmention, htoken, hfile ▸ hstands.standsOn⟩, hstands.referenced?_eq,
    hresolves.isType, ?_, ?_⟩
  · rw [← htext, hresolves.shortName_eq htrimmed]
  · rw [← htext]
    exact hresolves.spelling_eq_iff hscoped htrimmed (hspelling _ hresolves.isType)

end Unit

/-- Every type reference of a unit without `::` in the names of its declarations stands on the last part of the
qualified name of its target, which is the name of the target, if it has one that does not begin in a colon. -/
theorem importTree?_refersByName (ctx : Context) (messages : Messages) (members : List (String × Json))
    (hunit : Json.lookup "kind" members = some (.str unitClass))
    (hplain : ∀ e ∈ unitInventory ctx (.ofJson (.obj members)) (innerOf members),
      e.declares = true → ¬ [':', ':'] <:+: e.attrs.name.toList) :
    ∃ t, importTree? ctx messages (.obj members) = some t ∧
      ∀ ref, t.kind? ref = some .typeRef →
        ∃ token target, RefersByName ctx t (unitInventory ctx (.ofJson (.obj members)) (innerOf members)) ref token
          target :=
  ⟨_, (importTree?_obj ctx messages hunit).2, fun _ => refersByName_treeOf hplain⟩

/-- A namespace with an enumeration without a name, and a variable of a type in another namespace that has the name of
the first. -/
def colorUnit : List (String × Json) :=
  [("kind", .str "TranslationUnitDecl"), ("inner", .arr [
    .obj [("kind", .str "NamespaceDecl"), ("name", .str "color"), ("loc", .obj []), ("inner", .arr [
      .obj [("kind", .str "EnumDecl"), ("loc", .obj [])]])],
    .obj [("kind", .str "NamespaceDecl"), ("name", .str "ui"), ("loc", .obj []), ("inner", .arr [
      .obj [("kind", .str "CXXRecordDecl"), ("name", .str "color"), ("loc", .obj [])],
      .obj [("kind", .str "VarDecl"), ("name", .str "c"),
        ("loc", .obj [("file", .str "main.cpp"), ("line", .num (.int 1)), ("col", .num (.int 7)),
          ("offset", .num (.int 6))]),
        ("range", .obj [("begin", .obj [("col", .num (.int 1)), ("offset", .num (.int 0))]),
          ("end", .obj [("col", .num (.int 7)), ("offset", .num (.int 6))])]),
        ("type", .obj [("qualType", .str "color")])]])]])]

def colorText : FileTable String := ⟨[], [(["main.cpp"], "color c;")]⟩

theorem importTree?_refersByName_colorUnit :
    let ctx : Context := { mainFile := "main.cpp", sources := .ofFiles [] colorText }
    Json.lookup "kind" colorUnit = some (.str unitClass) ∧
      (∀ e ∈ unitInventory ctx (.ofJson (.obj colorUnit)) (innerOf colorUnit),
        e.declares = true → ¬ [':', ':'] <:+: e.attrs.name.toList) ∧
      ∃ t, importTree? ctx {} (.obj colorUnit) = some t ∧
        ∀ ref, t.kind? ref = some .typeRef →
          ∃ token target, RefersByName ctx t (unitInventory ctx (.ofJson (.obj colorUnit)) (innerOf colorUnit)) ref
            token target := by
  intro ctx
  have hplain : ∀ e ∈ unitInventory ctx (.ofJson (.obj colorUnit)) (innerOf colorUnit),
      e.declares = true → ¬ [':', ':'] <:+: e.attrs.name.toList := by decide +kernel
  exact ⟨rfl, hplain, importTree?_refersByName ctx {} colorUnit rfl hplain⟩

/-- The type reference of the variable refers to the enumeration and not to the type of that name. -/
theorem unnamed_target_colorUnit :
    let ctx : Context := { mainFile := "main.cpp", sources := .ofFiles [] colorText }
    ∃ t ref token target, importTree? ctx {} (.obj colorUnit) = some t ∧
      (∀ e ∈ unitInventory ctx (.ofJson (.obj colorUnit)) (innerOf colorUnit),
        e.declares = true → ¬ [':', ':'] <:+: e.attrs.name.toList) ∧
      t.kind? ref = some .typeRef ∧
      RefersByName ctx t (unitInventory ctx (.ofJson (.obj colorUnit)) (innerOf colorUnit)) ref token target ∧
      token.text = "color" ∧ t.kind? target = some .enumDecl ∧ t.spelling target = "" ∧
      ∃ other, IsType t other ∧ t.spelling other = "color" := by
  intro ctx
  have hplain : ∀ e ∈ unitInventory ctx (.ofJson (.obj colorUnit)) (innerOf colorUnit),
      e.declares = true → ¬ [':', ':'] <:+: e.attrs.name.toList := by decide +kernel
  have hread : ∀ t, t = treeOf ctx {} (.mk (.ofJson (.obj colorUnit)) (innerOf colorUnit)) →
      t.kind? 6 = some .typeRef ∧ t.referenced? 6 = some 2 ∧ shortName (t.qualifiedName 2) = "color" ∧
        t.kind? 2 = some .enumDecl ∧ t.spelling 2 = "" ∧
        (t.kindIn isTypeDeclaration 4 = true ∧ (t.lexicalParent? 4).isSome = true) ∧ t.spelling 4 = "color" := by
    rintro _ rfl
    decide +kernel
  obtain ⟨hkind, hrefers, htext, henum, hunnamed, htype, hother⟩ := hread _ rfl
  obtain ⟨token, target, href⟩ := refersByName_treeOf hplain hkind
  obtain rfl : 2 = target := Option.some.inj (hrefers.symm.trans href.refers)
  exact ⟨_, 6, token, 2, (importTree?_obj ctx {} rfl).2, hplain, hkind, href, href.text_eq.trans htext, henum,
    hunnamed, 4, htype, hother⟩

end Dump

end UnitFacts
