import UnitFacts.Proofs.Dump.Redeclarations
import UnitFacts.Proofs.Extract.Redirection

/-!
Redeclarations of a function are one target. Where all declarations of something can be called, uses of any
of them are reported against the same one: the definition if there is one, or else the first. That one stands
for itself, so that it does not matter for the facts of a unit which of the declarations a call or a name
leads to.
-/

namespace UnitFacts.Dump

open UnitFacts.Tree

/-- All declarations of what `first` is the first declaration of can be called. -/
def IsCallableGroup (d : Draft) (t : Tree) (first : NodeId) : Prop :=
  ∀ id, d.Declares id first → t.kindIn NodeKind.isCallable id = true

/-- The declaration that stands for all those with the same first one. -/
inductive StandsFor (d : Draft) (t : Tree) (first : NodeId) : NodeId → Prop
  | definition {id : NodeId} : d.Declares id first → t.isDefinition id = true →
      (t.isDefinition first = true → id = first) → StandsFor d t first id
  | first : d.Declares first first → (∀ id, d.Declares id first → t.isDefinition id = false) →
      StandsFor d t first first

/-- Calls and names that lead to any declaration of one function are reported against `target`. -/
structure OneCallTarget (d : Draft) (t : Tree) (first target : NodeId) : Prop where
  standsFor : StandsFor d t first target
  isCallable : t.kindIn NodeKind.isCallable target = true
  callableFor?_self : t.callableFor? target = some target
  callableFor?_eq : ∀ id, d.Declares id first → t.callableFor? id = some target
  call : ∀ call id, d.Declares id first → t.referenced? call = some id → t.callTarget? call = some target
  name : ∀ use id, d.Declares id first → t.referenced? use = some id → t.useTarget? use = some target

/-- `t'` is `t` but for uses of functions, names of types aside, that lead to other declarations of the same
functions. -/
structure RedeclaresUses (d : Draft) (t t' : Tree) : Prop where
  same : t'.withoutUses = t.withoutUses
  uses : ∀ use, t'.referenced? use = t.referenced? use ∨
    t.kind? use ≠ some .typeRef ∧ ∃ first a b, IsCallableGroup d t first ∧
      d.Declares a first ∧ t.referenced? use = some a ∧ d.Declares b first ∧ t'.referenced? use = some b

/-! ### The declaration that stands for a group -/

section StandsFor

variable {d : Draft} {t : Tree} {first target : NodeId}

theorem exists_standsFor (hfirst : d.Declares first first) : ∃ target, StandsFor d t first target := by
  by_cases hdefinition : t.isDefinition first = true
  · exact ⟨first, .definition hfirst hdefinition fun _ => rfl⟩
  · by_cases hother : ∃ id, d.Declares id first ∧ t.isDefinition id = true
    · obtain ⟨id, hid, hmarked⟩ := hother
      exact ⟨id, .definition hid hmarked fun hmark => absurd hmark hdefinition⟩
    · refine ⟨first, .first hfirst fun id hid => ?_⟩
      exact eq_false_of_ne_true fun hmarked => hother ⟨id, hid, hmarked⟩

theorem StandsFor.declares (htarget : StandsFor d t first target) : d.Declares target first := by
  cases htarget with
  | definition hdeclares => exact hdeclares
  | first hself => exact hself

theorem StandsFor.eq_first (htarget : StandsFor d t first target) (hnone : t.isDefinition target = false) :
    target = first := by
  cases htarget with
  | definition _ hdefinition => cases hnone.symm.trans hdefinition
  | first => rfl

theorem Draft.Declares.self {id : NodeId} (h : d.Declares id first) : d.Declares first first :=
  ⟨Relation.ReflTransGen.refl, h.ends⟩

theorem Draft.Declares.eq_first {id : NodeId} (h : d.Declares id first) (hfirst : ¬ d.IsRedeclared first) :
    id = first := by
  by_contra hne
  exact hfirst ⟨id, hne, h⟩

theorem callableOnly_of_kindIn {id : NodeId} (h : t.kindIn NodeKind.isCallable id = true) :
    t.callableOnly (some id) = some id := Option.filter_some_pos h

@[simp] theorem callableOnly_none : t.callableOnly none = none := rfl

end StandsFor

namespace RedeclarationsLinked

variable {d : Draft} {t : Tree} (h : RedeclarationsLinked d t)
include h

theorem declares_unique {id first second : NodeId} (hfirst : d.Declares id first) (hsecond : d.Declares id second) :
    first = second := (h.first_unique id).unique hfirst hsecond

theorem canonical?_of_declares {id first : NodeId} (hid : d.Declares id first) (hfirst : d.IsRedeclared first) :
    t.canonical? id = some first := (h.canonical_iff id first).mpr ⟨hid, hfirst⟩

/-- Without a second declaration there are no links. -/
theorem links_of_not_isRedeclared {id first : NodeId} (hid : d.Declares id first) (hfirst : ¬ d.IsRedeclared first) :
    t.canonical? id = none ∧ t.definition? id = none := by
  constructor
  · refine Option.eq_none_iff_forall_ne_some.mpr fun canonical hcanonical => ?_
    obtain ⟨hdeclares, hredeclared⟩ := (h.canonical_iff id canonical).mp hcanonical
    exact hfirst (h.declares_unique hid hdeclares ▸ hredeclared)
  · refine Option.eq_none_iff_forall_ne_some.mpr fun definition hdefinition => ?_
    obtain ⟨canonical, hdeclares, hredeclared, -⟩ := (h.definition_iff id definition).mp hdefinition
    exact hfirst (h.declares_unique hid hdeclares ▸ hredeclared)

/-- A group with a second declaration is linked to its definition if one stands for it. -/
theorem definition?_of_standsFor {id first target : NodeId} (hid : d.Declares id first)
    (hfirst : d.IsRedeclared first) (htarget : StandsFor d t first target) :
    t.definition? id = if t.isDefinition target then some target else none := by
  cases htarget with
  | definition hdeclares hdefinition honly =>
    rw [if_pos hdefinition, h.definition_iff]
    simp only [← h.isDefinition_eq]
    exact ⟨first, hid, hfirst, hdeclares, hdefinition, honly⟩
  | first hself hnone =>
    rw [hnone first hself]
    refine Option.eq_none_iff_forall_ne_some.mpr fun definition hdefinition => ?_
    obtain ⟨other, hother, -, hdeclares, hmarked, -⟩ := (h.definition_iff id definition).mp hdefinition
    rw [← h.isDefinition_eq, hnone definition (h.declares_unique hother hid ▸ hdeclares)] at hmarked
    cases hmarked

theorem callableFor?_of_standsFor {first target : NodeId} (hgroup : IsCallableGroup d t first)
    (htarget : StandsFor d t first target) {id : NodeId} (hid : d.Declares id first) :
    t.callableFor? id = some target := by
  have hcallable := callableOnly_of_kindIn (hgroup target htarget.declares)
  by_cases hredeclared : d.IsRedeclared first
  · rw [callableFor?, h.definition?_of_standsFor hid hredeclared htarget, h.canonical?_of_declares hid hredeclared]
    cases hmarked : t.isDefinition target with
    | true => simp [hcallable]
    | false =>
      -- the first declaration stands for the group, and it has no definition of its own
      obtain rfl := htarget.eq_first hmarked
      have hnone : t.definition? target = none := by
        rw [h.definition?_of_standsFor htarget.declares hredeclared htarget, hmarked]
        rfl
      simp [hcallable, hnone]
  · obtain rfl := hid.eq_first hredeclared
    obtain rfl := htarget.declares.eq_first hredeclared
    obtain ⟨hcanonical, hdefinition⟩ := h.links_of_not_isRedeclared hid hredeclared
    rw [callableFor?, hcanonical, hdefinition]
    exact hcallable

/-- A group that can be called is one target. -/
theorem oneCallTarget {first : NodeId} (hfirst : d.Declares first first) (hgroup : IsCallableGroup d t first) :
    ∃ target, OneCallTarget d t first target := by
  obtain ⟨target, htarget⟩ := exists_standsFor (t := t) hfirst
  have hall : ∀ id, d.Declares id first → t.callableFor? id = some target :=
    fun id hid => h.callableFor?_of_standsFor hgroup htarget hid
  refine ⟨target, htarget, hgroup target htarget.declares, hall target htarget.declares, hall, ?_, ?_⟩
  · intro call id hid hcall
    rw [callTarget?, hcall, Option.bind_some, hall id hid, Option.some_or]
  · intro use id hid huse
    rw [useTarget?, huse, Option.map_some, hall id hid, Option.getD_some]

theorem redirectsTo {t' : Tree} (huses : RedeclaresUses d t t') : t.RedirectsTo t' where
  same := huses.same
  uses use := by
    rcases huses.uses use with heq | ⟨htype, first, a, b, hgroup, ha, hause, hb, hbuse⟩
    · exact Or.inl heq
    · obtain ⟨target, htarget⟩ := h.oneCallTarget ha.self hgroup
      exact Or.inr ⟨htype, a, b, target, hause, hbuse, htarget.callableFor?_eq a ha, htarget.callableFor?_eq b hb⟩

end RedeclarationsLinked

/-- In the tree of a unit every function that is declared several times is one target, and its facts do not
depend on which of the declarations the uses lead to. -/
theorem importTree?_oneCallTarget (ctx : Context) (messages : Messages) (dump : Json) (root : Node)
    (hroot : Node.ofJson? dump = some root) (hcls : root.attrs.cls = unitClass)
    (hac : Acyclic (buildRoot ctx root).Redeclares) (hone : (buildRoot ctx root).OneDefinition) :
    ∃ t, importTree? ctx messages dump = some t ∧
      (∀ first, (buildRoot ctx root).Declares first first → IsCallableGroup (buildRoot ctx root) t first →
        ∃ target, OneCallTarget (buildRoot ctx root) t first target) ∧
      ∀ t', RedeclaresUses (buildRoot ctx root) t t' →
        ∀ file options, t'.extract file options = t.extract file options := by
  have hlinked := linked_treeOf ctx messages root hac hone
  refine ⟨treeOf ctx messages root, ?_, fun first hfirst => hlinked.oneCallTarget hfirst, ?_⟩
  · rw [importTree?, hroot]
    exact if_pos hcls
  · intro t' huses file options
    exact (hlinked.redirectsTo huses).extract_eq file options

theorem Draft.mem_groupIn_of_declares {d : Draft} (hac : Acyclic d.Redeclares) {id first : NodeId}
    (h : d.Declares id first) : id ∈ d.chain.groupIn d.chain.redeclared first := by
  have hfirst := (Draft.chased_eq_iff hac id first).mpr h
  have hmem := (Chain.mem_groupIn_iff (Draft.acyclic_chain hac) id id).mpr rfl
  rwa [hfirst] at hmem

/-- A function that is declared, defined, where it calls itself by its first declaration, and declared again. -/
def recallingUnit : List (String × Json) :=
  [("kind", .str "TranslationUnitDecl"), ("inner", .arr [
    .obj [("kind", .str "FunctionDecl"), ("id", .str "f1"), ("name", .str "f"), ("loc", .obj [])],
    .obj [("kind", .str "FunctionDecl"), ("id", .str "f2"), ("name", .str "f"), ("loc", .obj []),
      ("previousDecl", .str "f1"), ("inner", .arr [
        .obj [("kind", .str "CompoundStmt"), ("inner", .arr [
          .obj [("kind", .str "CallExpr"), ("inner", .arr [
            .obj [("kind", .str "DeclRefExpr"),
              ("referencedDecl", .obj [("id", .str "f1"), ("name", .str "f")])]])]])]])],
    .obj [("kind", .str "FunctionDecl"), ("id", .str "f3"), ("name", .str "f"), ("loc", .obj []),
      ("previousDecl", .str "f2")]])]

def recallingTree : Tree where
  files := [⟨"main.cpp", true, false⟩]
  root := 0
  nodes := #[
    { kind := .unit, spelling := "main.cpp", children := [1, 2, 6] },
    { kind := .functionDecl, spelling := "f", lexicalParent := some 0, semanticParent := some 0,
      canonical := some 1, definition := some 2 },
    { kind := .functionDecl, spelling := "f", lexicalParent := some 0, semanticParent := some 0,
      children := [3], canonical := some 1, definition := some 2, isDefinition := true },
    { kind := .compoundStmt, lexicalParent := some 2, semanticParent := some 2, children := [4] },
    { kind := .callExpr, lexicalParent := some 3, semanticParent := some 2, children := [5] },
    { kind := .declRefExpr, spelling := "f", lexicalParent := some 4, semanticParent := some 2,
      referenced := some 1 },
    { kind := .functionDecl, spelling := "f", lexicalParent := some 0, semanticParent := some 0,
      canonical := some 1, definition := some 2 }]

def recallingRoot : Node := .mk (.ofJson (.obj recallingUnit)) (innerOf recallingUnit)

def recallingDraft : Draft := buildRoot { mainFile := "main.cpp" } recallingRoot

theorem acyclic_recallingDraft : Acyclic recallingDraft.Redeclares := by
  apply Draft.acyclic_of_lt
  decide +kernel

theorem oneDefinition_recallingDraft : recallingDraft.OneDefinition := by
  apply Draft.oneDefinition_of_forall acyclic_recallingDraft
  decide +kernel

theorem declares_recallingDraft : ∀ id ∈ [1, 2, 6], recallingDraft.Declares id 1 := by
  simp only [← Draft.chased_eq_iff acyclic_recallingDraft]
  decide +kernel

theorem isCallableGroup_recallingTree : IsCallableGroup recallingDraft recallingTree 1 := by
  intro id hid
  have hall : ∀ id ∈ recallingDraft.chain.groupIn recallingDraft.chain.redeclared 1,
      recallingTree.kindIn NodeKind.isCallable id = true := by
    decide +kernel
  exact hall id (Draft.mem_groupIn_of_declares acyclic_recallingDraft hid)

/-- The call may as well lead to the last declaration. -/
theorem redeclaresUses_recallingTree :
    RedeclaresUses recallingDraft recallingTree (recallingTree.setReferenced 5 6) where
  same := withoutUses_setReferenced recallingTree 5 6
  uses use := by
    by_cases huse : 5 = use
    · subst huse
      exact Or.inr ⟨by decide, 1, 1, 6, isCallableGroup_recallingTree, declares_recallingDraft 1 (by simp), rfl,
        declares_recallingDraft 6 (by simp), rfl⟩
    · refine Or.inl ?_
      rw [referenced?, setReferenced, node?_modify, if_neg huse, referenced?]

theorem importTree?_oneCallTarget_recallingUnit :
    ∃ t, importTree? { mainFile := "main.cpp" } {} (.obj recallingUnit) = some t ∧
      OneCallTarget recallingDraft t 1 2 ∧
      ∀ file options, (t.setReferenced 5 6).extract file options = t.extract file options := by
  have himport : importTree? { mainFile := "main.cpp" } {} (.obj recallingUnit) = some recallingTree := by
    decide +kernel
  obtain ⟨t, ht, htargets, hfacts⟩ := importTree?_oneCallTarget { mainFile := "main.cpp" } {} (.obj recallingUnit)
    recallingRoot rfl rfl acyclic_recallingDraft oneDefinition_recallingDraft
  obtain rfl := Option.some.inj (himport.symm.trans ht)
  obtain ⟨target, htarget⟩ := htargets 1 (declares_recallingDraft 1 (by simp)) isCallableGroup_recallingTree
  have heq : some 2 = some target := htarget.callableFor?_eq 1 (declares_recallingDraft 1 (by simp))
  obtain rfl := Option.some.inj heq
  exact ⟨recallingTree, himport, htarget, hfacts _ redeclaresUses_recallingTree⟩

end UnitFacts.Dump
