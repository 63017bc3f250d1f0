import UnitFacts.Proofs.Tree.Label
import UnitFacts.Proofs.Tree.Walk

/-!
The laws of qualified names. A name is composed along the chain of semantic parents, from the node to the first
unit: a node with a name of its own puts it behind that of its scope, if there is one, a node without a name goes
by that of its scope, and where the whole chain has no name there is a word that stands for one. What a name is
made of is the kinds, the spellings and the semantic parents along this chain, and nothing else of the tree.
-/

namespace UnitFacts.Tree

/-- From a node that is no unit to its semantic parent. -/
def StepsOut (t : Tree) (inner outer : NodeId) : Prop :=
  t.kind? inner ≠ some .unit ∧ t.semanticParent? inner = some outer

/-- `k` is `id` or stands on its chain of semantic parents with no unit before it. -/
def LooksAt (t : Tree) (id k : NodeId) : Prop := Relation.ReflTransGen t.StepsOut id k

/-- A node on the chain, before the first unit, has a spelling. -/
def HasName (t : Tree) (id : NodeId) : Prop :=
  ∃ k, t.LooksAt id k ∧ t.kind? k ≠ some .unit ∧ t.spelling k ≠ ""

/-- What the name of `k` is made of is the same for its image in another tree: whether it is the unit, and else its
spelling and its semantic parent. -/
structure SameScope (t t' : Tree) (image : NodeId → NodeId) (k : NodeId) : Prop where
  unit_iff : t'.kind? (image k) = some .unit ↔ t.kind? k = some .unit
  spelling_eq : t.kind? k ≠ some .unit → t'.spelling (image k) = t.spelling k
  scope_eq : t.kind? k ≠ some .unit → t'.semanticParent? (image k) = (t.semanticParent? k).map image

/-- The qualified name of a node, in terms of that of its semantic parent. -/
structure NameComposed (t : Tree) (id : NodeId) : Prop where
  ne_empty : t.qualifiedName id ≠ ""
  behind_scope : ∀ scope, t.kind? id ≠ some .unit → t.spelling id ≠ "" → t.semanticParent? id = some scope →
    t.HasName scope → t.qualifiedName id = t.qualifiedName scope ++ "::" ++ t.spelling id
  outermost : t.kind? id ≠ some .unit → t.spelling id ≠ "" →
    (∀ scope, t.semanticParent? id = some scope → ¬ t.HasName scope) → t.qualifiedName id = t.spelling id
  through : ∀ scope, t.kind? id ≠ some .unit → t.spelling id = "" → t.semanticParent? id = some scope →
    t.qualifiedName id = t.qualifiedName scope
  unnamed : ¬ t.HasName id → t.qualifiedName id = "(unnamed)"
  determined : ∀ (t' : Tree) (image : NodeId → NodeId), t'.check = .ok () → image id < t'.size →
    (∀ k, t.LooksAt id k → SameScope t t' image k) → t'.qualifiedName (image id) = t.qualifiedName id

theorem intercalate_ne_empty (separator : String) {parts : List String} (hparts : parts ≠ [])
    (h : ∀ part ∈ parts, part ≠ "") : separator.intercalate parts ≠ "" := by
  obtain ⟨first, rest, rfl⟩ := List.exists_cons_of_ne_nil hparts
  have hfirst := h first List.mem_cons_self
  cases rest with
  | nil => rwa [String.intercalate_singleton]
  | cons second rest =>
    intro hempty
    rw [String.intercalate_cons_cons, String.append_eq_empty_iff, String.append_eq_empty_iff] at hempty
    exact hfirst hempty.1.1

/-- No qualified name is empty: its parts are not, and there is a word for the name without parts. -/
theorem qualifiedName_ne_empty (t : Tree) (id : NodeId) : t.qualifiedName id ≠ "" := by
  have hparts : ∀ part ∈ t.nameSegments id, part ≠ "" := by
    intro part hpart
    exact of_decide_eq_true (List.mem_filter.mp hpart).2
  rw [qualifiedName]
  split
  · decide
  · rename_i hsegments
    apply intercalate_ne_empty
    · exact mt List.reverse_eq_nil_iff.mp hsegments
    · intro part hpart
      exact hparts part (List.mem_reverse.mp hpart)

theorem isUnit_iff (t : Tree) (id : NodeId) : t.isUnit id = true ↔ t.kind? id = some .unit := by
  rw [isUnit, kindIn, Option.any_eq_true]
  simp

theorem hasName_iff (t : Tree) (id : NodeId) : t.HasName id ↔
    t.kind? id ≠ some .unit ∧
      (t.spelling id ≠ "" ∨ ∃ scope, t.semanticParent? id = some scope ∧ t.HasName scope) := by
  constructor
  · rintro ⟨k, hk, hunit, hname⟩
    rcases Relation.ReflTransGen.cases_head hk with rfl | ⟨scope, ⟨hid, hscope⟩, hrest⟩
    · exact ⟨hunit, Or.inl hname⟩
    · exact ⟨hid, Or.inr ⟨scope, hscope, k, hrest, hunit, hname⟩⟩
  · rintro ⟨hid, hname | ⟨scope, hscope, k, hk, hunit, hname⟩⟩
    · exact ⟨id, .refl, hid, hname⟩
    · exact ⟨k, .head ⟨hid, hscope⟩ hk, hunit, hname⟩

namespace Scoped

variable {t : Tree} (ht : t.Scoped)
include ht

theorem nameSegments_ne_nil_iff {id : NodeId} (hid : id < t.size) : t.nameSegments id ≠ [] ↔ t.HasName id := by
  -- outwards along the chain, which ends in a scoped tree
  induction id using ht.ends.induction with
  | _ id ih =>
    rw [hasName_iff, ht.nameSegments_eq hid, Ne, Ne, ← isUnit_iff]
    cases t.isUnit id with
    | true => simp
    | false =>
      cases hscope : t.semanticParent? id with
      | none => simp
      | some scope =>
        have hrest := ih scope hscope (ht.lt scope id hscope)
        by_cases hname : t.spelling id = "" <;> simp [hname, ← hrest]

/-- The parts of the name of an inner node are its own, if it has one, and those of its scope. -/
theorem nameSegments_inner {id : NodeId} (hid : id < t.size) (hunit : t.kind? id ≠ some .unit) :
    t.nameSegments id =
      (if t.spelling id = "" then [] else [t.spelling id]) ++ (t.semanticParent? id).elim [] t.nameSegments := by
  rw [ht.nameSegments_eq hid, if_neg (mt (t.isUnit_iff id).mp hunit)]

theorem qualifiedName_behind_scope {id scope : NodeId} (hid : id < t.size) (hunit : t.kind? id ≠ some .unit)
    (hname : t.spelling id ≠ "") (hscope : t.semanticParent? id = some scope) (hnamed : t.HasName scope) :
    t.qualifiedName id = t.qualifiedName scope ++ "::" ++ t.spelling id := by
  have hparts : (t.nameSegments scope).reverse ≠ [] :=
    mt List.reverse_eq_nil_iff.mp ((ht.nameSegments_ne_nil_iff (ht.lt scope id hscope)).mpr hnamed)
  rw [qualifiedName_eq_joinNames, qualifiedName_eq_joinNames, ht.nameSegments_inner hid hunit, if_neg hname, hscope,
    Option.elim_some, List.singleton_append, List.reverse_cons, joinNames_append_singleton hparts]

theorem qualifiedName_outermost {id : NodeId} (hid : id < t.size) (hunit : t.kind? id ≠ some .unit)
    (hname : t.spelling id ≠ "") (hnone : ∀ scope, t.semanticParent? id = some scope → ¬ t.HasName scope) :
    t.qualifiedName id = t.spelling id := by
  have hparts : (t.semanticParent? id).elim [] t.nameSegments = [] := by
    cases hscope : t.semanticParent? id with
    | none => rfl
    | some scope => simpa using mt (ht.nameSegments_ne_nil_iff (ht.lt scope id hscope)).mp (hnone scope hscope)
  rw [qualifiedName_eq_joinNames, ht.nameSegments_inner hid hunit, if_neg hname, hparts]
  rfl

theorem qualifiedName_through {id scope : NodeId} (hid : id < t.size) (hunit : t.kind? id ≠ some .unit)
    (hname : t.spelling id = "") (hscope : t.semanticParent? id = some scope) :
    t.qualifiedName id = t.qualifiedName scope := by
  rw [qualifiedName_eq_joinNames, qualifiedName_eq_joinNames, ht.nameSegments_inner hid hunit, if_pos hname, hscope]
  rfl

theorem qualifiedName_unnamed {id : NodeId} (hid : id < t.size) (hnone : ¬ t.HasName id) :
    t.qualifiedName id = "(unnamed)" := by
  have hparts : t.nameSegments id = [] := by simpa using mt (ht.nameSegments_ne_nil_iff hid).mp hnone
  rw [qualifiedName_eq_joinNames, hparts]
  rfl

/-- The parts of a name are copied with the chain that they stand on. -/
theorem nameSegments_image {t' : Tree} (ht' : t'.Scoped) (image : NodeId → NodeId) {id : NodeId} (hid : id < t.size)
    (hid' : image id < t'.size) (h : ∀ k, t.LooksAt id k → SameScope t t' image k) :
    t'.nameSegments (image id) = t.nameSegments id := by
  induction id using ht.ends.induction with
  | _ id ih =>
    have hsame := h id .refl
    by_cases hunit : t.kind? id = some .unit
    · rw [ht.nameSegments_eq hid, ht'.nameSegments_eq hid', if_pos ((t.isUnit_iff id).mpr hunit),
        if_pos ((t'.isUnit_iff _).mpr (hsame.unit_iff.mpr hunit))]
    · rw [ht.nameSegments_inner hid hunit, ht'.nameSegments_inner hid' (mt hsame.unit_iff.mp hunit),
        hsame.spelling_eq hunit, hsame.scope_eq hunit]
      cases hscope : t.semanticParent? id with
      | none => rfl
      | some scope =>
        have hparent : t'.Encloses (image scope) (image id) := by
          rw [Encloses, hsame.scope_eq hunit, hscope, Option.map_some]
        have hrest := ih scope hscope (ht.lt scope id hscope) (ht'.lt _ _ hparent)
          fun k hk => h k (.head ⟨hunit, hscope⟩ hk)
        rw [Option.map_some, Option.elim_some, Option.elim_some, hrest]

end Scoped

/-- The qualified names of a tree that passes the check are composed along the chains of semantic parents. -/
theorem nameComposed_of_check (t : Tree) (hcheck : t.check = .ok ()) (id : NodeId) (hid : id < t.size) :
    t.NameComposed id := by
  have ht : t.Scoped := (t.check_eq_ok_iff.mp hcheck).isScoped
  exact {
    ne_empty := t.qualifiedName_ne_empty id
    behind_scope := fun scope hunit hname hscope hnamed => ht.qualifiedName_behind_scope hid hunit hname hscope hnamed
    outermost := fun hunit hname hnone => ht.qualifiedName_outermost hid hunit hname hnone
    through := fun scope hunit hname hscope => ht.qualifiedName_through hid hunit hname hscope
    unnamed := fun hnone => ht.qualifiedName_unnamed hid hnone
    determined := fun t' image hcheck' hid' hsame => by
      rw [qualifiedName_eq_joinNames, qualifiedName_eq_joinNames,
        ht.nameSegments_image (t'.check_eq_ok_iff.mp hcheck').isScoped image hid hid' hsame] }

/-- A namespace, in it one without a name, in that a class, and a method of the class that stands outside of it. -/
def anonymousScopeTree : Tree :=
  ⟨[⟨"main.cpp", true, false⟩], 0,
    #[{ kind := .unit, spelling := "main.cpp", children := [1, 4] },
      { kind := .namespaceDecl, spelling := "engine", lexicalParent := some 0, semanticParent := some 0,
        children := [2] },
      { kind := .namespaceDecl, lexicalParent := some 1, semanticParent := some 1, children := [3] },
      { kind := .classDecl, spelling := "Box", lexicalParent := some 2, semanticParent := some 2 },
      { kind := .cxxMethod, spelling := "open", lexicalParent := some 0, semanticParent := some 3 }], [], []⟩

theorem nameComposed_of_check_anonymousScopeTree :
    anonymousScopeTree.check = .ok () ∧ 4 < anonymousScopeTree.size ∧
      anonymousScopeTree.qualifiedName 4 = "engine::Box::open" ∧ anonymousScopeTree.NameComposed 4 := by
  have hcheck : anonymousScopeTree.check = .ok () := by decide
  exact ⟨hcheck, by decide, by decide +kernel, nameComposed_of_check anonymousScopeTree hcheck 4 (by decide)⟩

end UnitFacts.Tree
