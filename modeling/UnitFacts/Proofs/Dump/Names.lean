import UnitFacts.Proofs.Dump.Passes

/-!
The qualified names of what a unit declares. Where no scope is named by id, the qualified name of every
declaration and every template joins the names of the scopes that the inventory gives around it with its own
name: attached or loose, before or after the pattern of a template, and below whatever opens no scope.
-/

namespace UnitFacts

open UnitFacts.Tree

namespace Dump

section Unit

variable {ctx : Context} {attrs : Attrs} {inner : List Node}

theorem contexts_buildRoot_eq_nil (h : ∀ e ∈ unitInventory ctx attrs inner, e.attrs.parentContext = none) :
    (buildRoot ctx (.mk attrs inner)).contexts = [] := by
  rw [contexts_buildRoot, List.reverse_eq_nil_iff, List.filterMap_eq_nil_iff]
  intro e he
  simp [Entry.context?, h e he]

/-- Where no scope is named by id, links leave labels as they were read. -/
theorem label?_treeOf (messages : Messages)
    (h : ∀ e ∈ unitInventory ctx attrs inner, e.attrs.parentContext = none) {k : NodeId}
    (hk : k < (buildRoot ctx (.mk attrs inner)).tree.size) :
    (treeOf ctx messages (.mk attrs inner)).label? k = (buildRoot ctx (.mk attrs inner)).tree.label? k := by
  rw [treeOf_eq_treeIn, label?_treeIn, label?_linkedIn ctx _ _ (sound_buildRoot ctx (.mk attrs inner)).bounded hk,
    linkScopes_eq_self (contexts_buildRoot_eq_nil h)]

end Unit

/-- Every declaration and every template of a unit without scopes named by id has the qualified name that joins
the names of the scopes around it and its own. -/
theorem importTree?_qualifiedName (ctx : Context) (messages : Messages) (members : List (String × Json))
    (hunit : Json.lookup "kind" members = some (.str unitClass))
    (hcontext : ∀ e ∈ unitInventory ctx (.ofJson (.obj members)) (innerOf members), e.attrs.parentContext = none) :
    ∃ t, importTree? ctx messages (.obj members) = some t ∧
      Holds t (unitInventory ctx (.ofJson (.obj members)) (innerOf members)) ∧
      ∀ e ∈ unitInventory ctx (.ofJson (.obj members)) (innerOf members), e.declares = true →
        t.qualifiedName e.node = joinNames (addName e.scopes e.attrs.name) := by
  refine ⟨_, (importTree?_obj ctx messages hunit).2, holds_treeOf .., fun e he hdeclares => ?_⟩
  have hrole : e.role ≠ .unit ∧ e.isNew = true ∧ e.spelling = e.attrs.name := by
    simp only [Entry.declares, Bool.or_eq_true, decide_eq_true_eq] at hdeclares
    rcases hdeclares with hrole | hrole <;> simp [Entry.isNew, Entry.spelling, hrole]
  have hread := (Entry.stands_of_mem he hrole.1 hrole.2.1).names
    ((Entry.regular_of_mem he hrole.1).kind_ne hrole.2.1).2
  rw [hrole.2.2] at hread
  exact (sound_treeOf ctx messages _).isScoped.qualifiedName_of_names
    (hread.of_label_eq fun id hid => label?_treeOf messages hcontext hid)

/-- A namespace with a class template, a specialization after its pattern and an alias template; below it a linkage
specification with a function, in the body of which a lambda declares a variable; and an enumeration without a
name. -/
def scopedUnit : List (String × Json) :=
  [("kind", .str "TranslationUnitDecl"), ("name", .str "unit"), ("inner", .arr [
    .obj [("kind", .str "NamespaceDecl"), ("name", .str "ns"), ("loc", .obj []), ("inner", .arr [
      .obj [("kind", .str "ClassTemplateDecl"), ("name", .str "Box"), ("loc", .obj []), ("inner", .arr [
        .obj [("kind", .str "TemplateTypeParmDecl"), ("name", .str "T"), ("loc", .obj [])],
        .obj [("kind", .str "CXXRecordDecl"), ("name", .str "Inner"), ("loc", .obj []), ("inner", .arr [
          .obj [("kind", .str "FieldDecl"), ("name", .str "item"), ("loc", .obj [])]])],
        .obj [("kind", .str "ClassTemplateSpecializationDecl"), ("name", .str "Box"), ("loc", .obj []), ("inner", .arr [
          .obj [("kind", .str "FieldDecl"), ("name", .str "item"), ("loc", .obj [])]])]])],
      .obj [("kind", .str "TypeAliasTemplateDecl"), ("name", .str "Boxes"), ("loc", .obj []), ("inner", .arr [
        .obj [("kind", .str "TypeAliasDecl"), ("name", .str "Boxes"), ("loc", .obj [])]])]])],
    .obj [("kind", .str "LinkageSpecDecl"), ("loc", .obj []), ("inner", .arr [
      .obj [("kind", .str "FunctionDecl"), ("name", .str "run"), ("loc", .obj []), ("inner", .arr [
        .obj [("kind", .str "CompoundStmt"), ("inner", .arr [
          .obj [("kind", .str "LambdaExpr"), ("inner", .arr [
            .obj [("kind", .str "VarDecl"), ("name", .str "step"), ("loc", .obj [])]])]])]])]])],
    .obj [("kind", .str "EnumDecl"), ("loc", .obj [])]])]

theorem importTree?_qualifiedName_scopedUnit :
    Json.lookup "kind" scopedUnit = some (.str unitClass) ∧
      (∀ e ∈ unitInventory { mainFile := "main.cpp" } (.ofJson (.obj scopedUnit)) (innerOf scopedUnit),
        e.attrs.parentContext = none) ∧
      ((unitInventory { mainFile := "main.cpp" } (.ofJson (.obj scopedUnit)) (innerOf scopedUnit)).filter
        Entry.declares).map (fun e => (e.node, joinNames (addName e.scopes e.attrs.name))) =
        [(1, "ns"), (2, "ns::Box"), (3, "ns::Box::T"), (4, "ns::Box::item"), (5, "ns::Box"), (6, "ns::Box::item"),
          (7, "ns::Boxes"), (8, "ns::Boxes"), (9, "(unnamed)"), (10, "run"), (13, "run::step"), (14, "(unnamed)")] ∧
      ∃ t, importTree? { mainFile := "main.cpp" } {} (.obj scopedUnit) = some t ∧
        Holds t (unitInventory { mainFile := "main.cpp" } (.ofJson (.obj scopedUnit)) (innerOf scopedUnit)) ∧
        ∀ e ∈ unitInventory { mainFile := "main.cpp" } (.ofJson (.obj scopedUnit)) (innerOf scopedUnit),
          e.declares = true → t.qualifiedName e.node = joinNames (addName e.scopes e.attrs.name) := by
  have hcontext : ∀ e ∈ unitInventory { mainFile := "main.cpp" } (.ofJson (.obj scopedUnit)) (innerOf scopedUnit),
      e.attrs.parentContext = none := by decide +kernel
  exact ⟨rfl, hcontext, by decide +kernel,
    importTree?_qualifiedName { mainFile := "main.cpp" } {} scopedUnit rfl hcontext⟩

end Dump

end UnitFacts
