import UnitFacts.Proofs.Dump.TypeTargets
import UnitFacts.Proofs.Dump.UseLinks

/-!
The constructors of constructed records. A construction says with which type its constructor is written and names the
record by its own type. It is linked to a constructor that is written with that type and stands in a record of that
name. The name is what the type gives before its first template argument list. So it is that of the record if nothing
follows the list, and that of a record around it if the type goes on, as that of a member of a specialization does.
-/

namespace UnitFacts

open UnitFacts.Tree

namespace Dump

/-- An expression that constructs a record. -/
def IsConstruction (attrs : Attrs) : Prop := attrs.cls = "CXXConstructExpr" ∨ attrs.cls = "CXXTemporaryObjectExpr"

instance (attrs : Attrs) : Decidable (IsConstruction attrs) :=
  inferInstanceAs (Decidable (attrs.cls = "CXXConstructExpr" ∨ attrs.cls = "CXXTemporaryObjectExpr"))

/-- The types that an expression is written with. -/
def writtenTypes (attrs : Attrs) : List String := attrs.desugaredType.toList ++ attrs.qualType.toList

/-- The scope of a constructor goes by the name that a type gives before its first template argument list. -/
structure NamedBy (t : Tree) (scope : NodeId) (type : String) : Prop where
  ne_empty : recordName type ≠ ""
  qualifiedName_eq : t.qualifiedName scope = recordName type
  lastPart : IsDeclared t scope → IsLastPart (recordName type) (t.spelling scope)
  lastPart_plain : IsDeclared t scope → EndsAtArguments type → IsLastPart (plainName type) (t.spelling scope)

/-- A constructor is written with the type that a construction gives and stands in a scope of the name that the type of
the construction gives. -/
structure ConstructorFound (t : Tree) (entries : List Entry) (attrs : Attrs) (ctor : NodeId) : Prop where
  written : ∃ o ∈ entries, o.node = ctor ∧ o.role = .declaration ∧ o.kind = .constructor ∧
    ∃ type, o.attrs.qualType = some type ∧ attrs.ctorType = some type
  scope : ∃ scope, t.semanticParent? ctor = some scope ∧ ∃ type ∈ writtenTypes attrs, NamedBy t scope type

/-- Constructions refer to constructors that are found for them, and each refers to one if there is any. -/
structure ConstructorsLinked (t : Tree) (entries : List Entry) : Prop where
  found : ∀ e ∈ entries, IsConstruction e.attrs → ∀ ctor, t.referenced? e.node = some ctor →
    ConstructorFound t entries e.attrs ctor
  linked : ∀ e ∈ entries, IsConstruction e.attrs → ∀ ctor, ConstructorFound t entries e.attrs ctor →
    (t.referenced? e.node).isSome

/-! ### Looking up a constructor -/

theorem IsConstruction.construct?_eq {attrs : Attrs} (h : IsConstruction attrs) (id : NodeId) :
    construct? attrs id = attrs.ctorType.map fun ctorType =>
      ⟨id, ((writtenTypes attrs).map recordName).filter fun name => name ≠ "", ctorType⟩ := by
  rcases h with h | h <;> simp [construct?, h, writtenTypes]

theorem IsConstruction.linkTarget?_eq_none {attrs : Attrs} (h : IsConstruction attrs) : linkTarget? attrs = none := by
  rcases h with h | h <;> simp [linkTarget?, h]

theorem IsConstruction.plan_eq {attrs : Attrs} (h : IsConstruction attrs) : attrs.plan = .statement .callExpr := by
  rcases h with h | h <;> rw [Attrs.plan, h] <;> rfl

/-- A constructor is noted with a type and stands in a scope of a name. -/
def Draft.Offers (d : Draft) (t : Tree) (record ctorType : String) (ctor : NodeId) : Prop :=
  (ctor, ctorType) ∈ d.ctorTypes ∧ ∃ scope, t.semanticParent? ctor = some scope ∧ t.qualifiedName scope = record

section Lookup

variable {d : Draft} {t : Tree} {record ctorType : String} {ctor : NodeId}

theorem offers_of_constructor?_eq_some (h : constructor? d t record ctorType = some ctor) :
    d.Offers t record ctorType ctor := by
  obtain ⟨⟨found, type⟩, hfind, rfl⟩ := Option.map_eq_some_iff.mp h
  have htest := List.find?_some hfind
  simp only [Bool.and_eq_true, decide_eq_true_eq, Option.any_eq_true] at htest
  obtain ⟨rfl, scope, hscope, hname⟩ := htest
  exact ⟨List.mem_reverse.mp (List.mem_of_find?_eq_some hfind), scope, hscope, hname⟩

theorem isSome_constructor?_of_offers (h : d.Offers t record ctorType ctor) :
    (constructor? d t record ctorType).isSome := by
  obtain ⟨hmem, scope, hscope, hname⟩ := h
  rw [constructor?, Option.isSome_map, List.find?_isSome]
  exact ⟨_, List.mem_reverse.mpr hmem, by simp [hscope, hname]⟩

end Lookup

/-! ### The tree of a unit -/

section Unit

variable {ctx : Context} {attrs : Attrs} {inner : List Node} {messages : Messages}

/-- The scopes that count for constructions are those of the finished tree and have the same names. -/
theorem scope_named_iff (messages : Messages) {k : NodeId} (hk : k < (buildRoot ctx (.mk attrs inner)).tree.size)
    (scope : NodeId) (name : String) :
    (namesOf ctx (.mk attrs inner)).semanticParent? k = some scope ∧
        (namesOf ctx (.mk attrs inner)).qualifiedName scope = name ↔
      (treeOf ctx messages (.mk attrs inner)).semanticParent? k = some scope ∧
        (treeOf ctx messages (.mk attrs inner)).qualifiedName scope = name := by
  rw [treeOf_eq_treeIn, namesOf]
  generalize (buildRoot ctx (.mk attrs inner)).groups ctx.order = groups
  have hresolved : ((buildRoot ctx (.mk attrs inner)).resolved groups).Scoped := scoped_resolved groups
  generalize typeTable _ = types
  have hlabel : ∀ k, k < ((buildRoot ctx (.mk attrs inner)).resolved groups).size →
      (treeIn ctx messages (.mk attrs inner) groups types).label? k =
        ((buildRoot ctx (.mk attrs inner)).resolved groups).label? k := fun k hk =>
    label?_treeIn_of_lt messages groups hk
  generalize buildRoot ctx (.mk attrs inner) = d at *
  rw [semanticParent?_eq_label, label?_named, semanticParent?_eq_label,
    hlabel k ((size_resolved d groups).symm ▸ hk), ← semanticParent?_eq_label]
  refine and_congr_right fun hscope => ?_
  have hlt := hresolved.lt scope k hscope
  rw [hresolved.qualifiedName_eq_of_label_eq hlabel hlt,
    hresolved.qualifiedName_eq_of_label_eq (fun id _ => label?_named d groups id) hlt]

theorem mem_ctorTypes_iff (ctor : NodeId) (type : String) :
    (ctor, type) ∈ (buildRoot ctx (.mk attrs inner)).ctorTypes ↔
    ∃ o ∈ unitInventory ctx attrs inner, o.node = ctor ∧ o.role = .declaration ∧ o.kind = .constructor ∧
      o.attrs.qualType = some type := by
  have hnoted : ∀ o : Entry, o.ctorType? = some (ctor, type) ↔
      o.node = ctor ∧ o.role = .declaration ∧ o.kind = .constructor ∧ o.attrs.qualType = some type := by
    intro o
    by_cases hctor : o.role = .declaration ∧ o.kind = .constructor
    · simp [Entry.ctorType?, hctor, and_comm]
    · have hnone : o.ctorType? = none := if_neg (by simpa using hctor)
      simp only [hnone, reduceCtorEq, false_iff]
      exact fun h => hctor ⟨h.2.1, h.2.2.1⟩
  simp [ctorTypes_buildRoot, hnoted]

/-- What counts for constructions is what is found in the finished tree. -/
theorem offers_named_iff (messages : Messages) (record ctorType : String) (ctor : NodeId) :
    (buildRoot ctx (.mk attrs inner)).Offers
        (namesOf ctx (.mk attrs inner)) record ctorType ctor ↔
      (∃ o ∈ unitInventory ctx attrs inner, o.node = ctor ∧ o.role = .declaration ∧ o.kind = .constructor ∧
        o.attrs.qualType = some ctorType) ∧
      ∃ scope, (treeOf ctx messages (.mk attrs inner)).semanticParent? ctor = some scope ∧
        (treeOf ctx messages (.mk attrs inner)).qualifiedName scope = record := by
  rw [Draft.Offers, mem_ctorTypes_iff]
  refine and_congr_right ?_
  rintro ⟨o, ho, rfl, -⟩
  exact exists_congr fun scope => scope_named_iff messages (lt_size_of_kind? (Entry.kind?_of_mem ho)) scope record

/-- A construction refers to the first constructor that is found by one of the names that its types give. -/
theorem IsConstruction.referenced?_eq {e : Entry} (h : IsConstruction e.attrs)
    (he : e ∈ unitInventory ctx attrs inner)
    (messages : Messages) (hcls : attrs.cls = unitClass) :
    (treeOf ctx messages (.mk attrs inner)).referenced? e.node = e.attrs.ctorType.bind fun ctorType =>
      (((writtenTypes e.attrs).map recordName).filter fun name => name ≠ "").findSome? fun record =>
        constructor? (buildRoot ctx (.mk attrs inner))
          (namesOf ctx (.mk attrs inner)) record ctorType := by
  rw [referenced?_treeOf he (Entry.role_eq_of_plan he hcls h.plan_eq), h.construct?_eq, h.linkTarget?_eq_none,
    Option.bind_none, Option.or_none, Option.bind_map]
  rfl

section Names

variable (hnames : ∀ o ∈ unitInventory ctx attrs inner, o.declares = true →
  o.attrs.name ≠ "" ∧ ¬ [':', ':'] <:+: o.attrs.name.toList)
include hnames

theorem namedBy_treeOf {scope : NodeId} {type : String} (hne : recordName type ≠ "")
    (hname : (treeOf ctx messages (.mk attrs inner)).qualifiedName scope = recordName type) :
    NamedBy (treeOf ctx messages (.mk attrs inner)) scope type := by
  have hlast : IsDeclared (treeOf ctx messages (.mk attrs inner)) scope →
      IsLastPart (recordName type) ((treeOf ctx messages (.mk attrs inner)).spelling scope) := by
    intro hdeclared
    obtain ⟨o, ho, hdeclares, hspelling⟩ := hdeclared.exists_entry
    obtain ⟨kind, hkind, -⟩ := (Option.any_eq_true ..).mp hdeclared.1
    obtain ⟨hnamed, hplain⟩ := hnames o ho hdeclares
    rw [← hspelling] at hnamed hplain
    refine ⟨hplain, hname ▸ ?_⟩
    exact qualifiedName_eq_or_endsIn (sound_treeOf ctx messages _).isScoped (lt_size_of_kind? hkind) hdeclared.2 hnamed
  exact ⟨hne, hname, hlast, fun hdeclared hends => recordName_eq_plainName hends ▸ hlast hdeclared⟩

theorem constructorsLinked_treeOf (messages : Messages) (hcls : attrs.cls = unitClass) :
    ConstructorsLinked (treeOf ctx messages (.mk attrs inner)) (unitInventory ctx attrs inner) := by
  constructor
  · intro e he hconstruction ctor href
    rw [hconstruction.referenced?_eq he messages hcls] at href
    obtain ⟨ctorType, hctorType, hfound⟩ := Option.bind_eq_some_iff.mp href
    obtain ⟨record, hrecord, hctor⟩ := List.exists_of_findSome?_eq_some hfound
    obtain ⟨hmem, hne⟩ := List.mem_filter.mp hrecord
    obtain ⟨type, htype, rfl⟩ := List.mem_map.mp hmem
    obtain ⟨⟨o, ho, hnode, hrole, hkind, hwritten⟩, scope, hscope, hname⟩ :=
      (offers_named_iff messages ..).mp (offers_of_constructor?_eq_some hctor)
    exact ⟨⟨o, ho, hnode, hrole, hkind, ctorType, hwritten, hctorType⟩, scope, hscope, type, htype,
      namedBy_treeOf hnames (by simpa using hne) hname⟩
  · intro e he hconstruction ctor hfound
    obtain ⟨⟨o, ho, hnode, hrole, hkind, ctorType, hwritten, hctorType⟩, scope, hscope, type, htype, hnamed⟩ :=
      hfound
    have hoffers := (offers_named_iff messages (recordName type) ctorType ctor).mpr
      ⟨⟨o, ho, hnode, hrole, hkind, hwritten⟩, scope, hscope, hnamed.qualifiedName_eq⟩
    rw [hconstruction.referenced?_eq he messages hcls, hctorType, Option.bind_some, List.findSome?_isSome_iff]
    refine ⟨recordName type, List.mem_filter.mpr ⟨List.mem_map_of_mem htype, ?_⟩,
      isSome_constructor?_of_offers hoffers⟩
    simpa using hnamed.ne_empty

end Names

end Unit

/-- In a unit whose declarations have names, none of them with `::`, a construction refers to a constructor that is
written with the type it gives and whose scope goes by the name that the type of the construction gives before its
first template argument list; and it refers to one if there is any. -/
theorem importTree?_constructorFound (ctx : Context) (messages : Messages) (members : List (String × Json))
    (hunit : Json.lookup "kind" members = some (.str unitClass))
    (hnames : ∀ o ∈ unitInventory ctx (.ofJson (.obj members)) (innerOf members), o.declares = true →
      o.attrs.name ≠ "" ∧ ¬ [':', ':'] <:+: o.attrs.name.toList) :
    ∃ t, importTree? ctx messages (.obj members) = some t ∧
      ConstructorsLinked t (unitInventory ctx (.ofJson (.obj members)) (innerOf members)) := by
  obtain ⟨hcls, himport⟩ := importTree?_obj ctx messages hunit
  exact ⟨_, himport, constructorsLinked_treeOf hnames messages hcls⟩

/-- A specialization with a constructor and a member record with one, and a construction of each of the two. -/
def nestingUnit : List (String × Json) :=
  let void := ("type", Json.obj [("qualType", .str "void ()")])
  let construction := fun (name type : String) => Json.obj [
    ("kind", .str "VarDecl"), ("name", .str name), ("loc", .obj []), ("inner", .arr [
      .obj [("kind", .str "CXXConstructExpr"), ("type", .obj [("qualType", .str type)]),
        ("ctorType", .obj [("qualType", .str "void ()")])]])]
  [("kind", .str "TranslationUnitDecl"), ("inner", .arr [
    .obj [("kind", .str "ClassTemplateSpecializationDecl"), ("name", .str "A"), ("loc", .obj []), ("inner", .arr [
      .obj [("kind", .str "CXXConstructorDecl"), ("name", .str "A"), ("loc", .obj []), void],
      .obj [("kind", .str "CXXRecordDecl"), ("name", .str "B"), ("loc", .obj []), ("inner", .arr [
        .obj [("kind", .str "CXXConstructorDecl"), ("name", .str "B"), ("loc", .obj []), void]])]])],
    construction "a" "A<int>",
    construction "b" "A<int>::B"])]

theorem importTree?_constructorFound_nestingUnit :
    Json.lookup "kind" nestingUnit = some (.str unitClass) ∧
      (∀ o ∈ unitInventory { mainFile := "main.cpp" } (.ofJson (.obj nestingUnit)) (innerOf nestingUnit),
        o.declares = true → o.attrs.name ≠ "" ∧ ¬ [':', ':'] <:+: o.attrs.name.toList) ∧
      ∃ t, importTree? { mainFile := "main.cpp" } {} (.obj nestingUnit) = some t ∧
        ConstructorsLinked t
          (unitInventory { mainFile := "main.cpp" } (.ofJson (.obj nestingUnit)) (innerOf nestingUnit)) := by
  have hnames : ∀ o ∈ unitInventory { mainFile := "main.cpp" } (.ofJson (.obj nestingUnit)) (innerOf nestingUnit),
      o.declares = true → o.attrs.name ≠ "" ∧ ¬ [':', ':'] <:+: o.attrs.name.toList := by decide +kernel
  exact ⟨rfl, hnames, importTree?_constructorFound { mainFile := "main.cpp" } {} nestingUnit rfl hnames⟩

/-- The construction of the member record refers to the constructor of the specialization. -/
theorem outer_constructor_nestingUnit :
    ∃ t, importTree? { mainFile := "main.cpp" } {} (.obj nestingUnit) = some t ∧
      (∀ o ∈ unitInventory { mainFile := "main.cpp" } (.ofJson (.obj nestingUnit)) (innerOf nestingUnit),
        o.declares = true →
          o.attrs.name ≠ "" ∧ ¬ [':', ':'] <:+: o.attrs.name.toList ∧ '<' ∉ o.attrs.name.toList) ∧
      (∃ e ∈ unitInventory { mainFile := "main.cpp" } (.ofJson (.obj nestingUnit)) (innerOf nestingUnit),
        e.node = 8 ∧ IsConstruction e.attrs ∧ writtenTypes e.attrs = ["A<int>::B"]) ∧
      t.referenced? 8 = some 2 ∧ t.semanticParent? 2 = some 1 ∧ t.spelling 1 = "A" ∧
      ¬ IsLastPart (plainName "A<int>::B") "A" ∧
      t.kind? 4 = some .constructor ∧ t.semanticParent? 4 = some 3 ∧ t.spelling 3 = "B" ∧
      IsLastPart (plainName "A<int>::B") "B" := by
  have hread : ∀ t,
      t = treeOf { mainFile := "main.cpp" } {} (.mk (.ofJson (.obj nestingUnit)) (innerOf nestingUnit)) →
      t.referenced? 8 = some 2 ∧ t.semanticParent? 2 = some 1 ∧ t.spelling 1 = "A" ∧
        t.kind? 4 = some .constructor ∧
        t.semanticParent? 4 = some 3 ∧ t.spelling 3 = "B" := by
    rintro _ rfl
    decide +kernel
  have hplain : plainName "A<int>::B" = "A::B" := by decide +kernel
  have houter : ¬ IsLastPart "A::B" "A" := by
    rw [IsLastPart, ← endsWith_iff]
    decide
  have hinner : IsLastPart "A::B" "B" := by
    rw [IsLastPart, ← endsWith_iff]
    decide
  obtain ⟨hrefers, hparent, hspelling, hctor, hparent', hspelling'⟩ := hread _ rfl
  rw [← hplain] at houter hinner
  exact ⟨_, (importTree?_obj _ _ rfl).2, by decide +kernel, by decide +kernel, hrefers, hparent, hspelling, houter,
    hctor, hparent', hspelling', hinner⟩

end Dump

end UnitFacts
