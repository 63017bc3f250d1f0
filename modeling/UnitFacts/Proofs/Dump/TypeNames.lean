import Mathlib.Data.Nat.Find
import UnitFacts.Proofs.Dump.Passes

/-!
Which type a written name stands for: the one with that qualified name, or else the one whose qualified name is
the only one that ends in it after a `::`. Of several declarations of a type the first counts, and loose ones do
not count at all. This is said of a tree, with no table; a table in any order gives the same answer.
-/

namespace UnitFacts

open UnitFacts.Tree

namespace Dump

/-- An attached declaration of a type. -/
def IsType (t : Tree) (id : NodeId) : Prop :=
  t.kindIn isTypeDeclaration id = true ∧ (t.lexicalParent? id).isSome = true

/-- The qualified name of some type. -/
def IsTypeName (t : Tree) (qualified : String) : Prop := ∃ id, IsType t id ∧ t.qualifiedName id = qualified

/-- The first declaration of the type with a qualified name. -/
structure IsFirstType (t : Tree) (qualified : String) (id : NodeId) : Prop where
  isType : IsType t id
  name_eq : t.qualifiedName id = qualified
  first : ∀ other, IsType t other → t.qualifiedName other = qualified → id ≤ other

/-- A qualified name ends in another name. -/
def EndsIn (qualified name : String) : Prop := ∃ scope, qualified = scope ++ ("::" ++ name)

/-- The type that a name stands for. -/
def Resolves (t : Tree) (name : String) (target : NodeId) : Prop :=
  IsFirstType t name target ∨
    ¬ IsTypeName t name ∧ ∃ qualified, EndsIn qualified name ∧ IsFirstType t qualified target ∧
      ∀ other, IsTypeName t other → EndsIn other name → other = qualified

theorem IsType.lt_size {t : Tree} {id : NodeId} (h : IsType t id) : id < t.size := lt_size_of_lexicalParent? h.2

theorem IsFirstType.isTypeName {t : Tree} {qualified : String} {id : NodeId} (h : IsFirstType t qualified id) :
    IsTypeName t qualified := ⟨id, h.isType, h.name_eq⟩

theorem IsFirstType.unique {t : Tree} {qualified : String} {id other : NodeId} (h : IsFirstType t qualified id)
    (h' : IsFirstType t qualified other) : id = other :=
  Nat.le_antisymm (h.first other h'.isType h'.name_eq) (h'.first id h.isType h.name_eq)

theorem IsTypeName.exists_first {t : Tree} {qualified : String} (h : IsTypeName t qualified) :
    ∃ id, IsFirstType t qualified id := by
  classical
  obtain ⟨htype, hname⟩ := Nat.find_spec h
  exact ⟨Nat.find h, htype, hname, fun other hother heq => Nat.find_min' h ⟨hother, heq⟩⟩

/-- A name in which two qualified names end stands for no type unless it is one itself. -/
theorem not_resolves_of_ambiguous {t : Tree} {name first second : String} (hname : ¬ IsTypeName t name)
    (hfirst : IsTypeName t first) (hsecond : IsTypeName t second) (hends : EndsIn first name)
    (hends' : EndsIn second name) (hne : first ≠ second) (target : NodeId) : ¬ Resolves t name target := by
  rintro (hexact | ⟨-, qualified, -, -, honly⟩)
  · exact hname hexact.isTypeName
  · exact hne ((honly first hfirst hends).trans (honly second hsecond hends').symm)

/-- Trees with the same types and names of types agree about names. -/
theorem resolves_congr {t t' : Tree} (htype : ∀ id, IsType t' id ↔ IsType t id)
    (hname : ∀ id, IsType t id → t'.qualifiedName id = t.qualifiedName id) (name : String) (target : NodeId) :
    Resolves t' name target ↔ Resolves t name target := by
  have hnames : IsTypeName t' = IsTypeName t := by
    funext qualified
    refine propext (exists_congr fun id => ?_)
    rw [htype]
    exact and_congr_right fun h => by rw [hname id h]
  have hfirsts : IsFirstType t' = IsFirstType t := by
    funext qualified id
    refine propext ⟨fun h => ?_, fun h => ?_⟩
    · have htarget := (htype id).mp h.isType
      exact ⟨htarget, hname id htarget ▸ h.name_eq, fun other hother heq =>
        h.first other ((htype other).mpr hother) (hname other hother ▸ heq)⟩
    · exact ⟨(htype id).mpr h.isType, (hname id h.isType).trans h.name_eq, fun other hother heq =>
        h.first other ((htype other).mp hother) (hname other ((htype other).mp hother) ▸ heq)⟩
  rw [Resolves, Resolves, hnames, hfirsts]

/-! ### The table of types -/

section Table

variable (t : Tree)

theorem mem_typeTable_iff (qualified : String) (id : NodeId) :
    (qualified, id) ∈ typeTable t ↔ IsFirstType t qualified id := by
  rw [typeTable, mem_firstByKey_iff, List.find?_map, List.find?_filter]
  simp only [List.not_mem_nil, not_false_eq_true, true_and, Option.map_eq_some_iff, List.find?_range_eq_some,
    decide_eq_true_eq, Bool.not_eq_true', decide_eq_false_iff_not, Bool.and_eq_true, Function.comp_apply,
    List.mem_range, Prod.mk.injEq]
  constructor
  · rintro ⟨found, ⟨⟨htype, hname⟩, -, hfirst⟩, -, rfl⟩
    refine ⟨htype, hname, fun other hother heq => Nat.le_of_not_lt fun hlt => ?_⟩
    exact hfirst other hlt ⟨hother, heq⟩
  · rintro ⟨htype, hname, hfirst⟩
    refine ⟨id, ⟨⟨htype, hname⟩, htype.lt_size, fun other hlt hother => ?_⟩, hname, rfl⟩
    exact Nat.not_le_of_lt hlt (hfirst other hother.1 hother.2)

theorem nodup_keys_typeTable : ((typeTable t).map Prod.fst).Nodup := (nodup_map_firstByKey _ [] _).1

theorem endsWith_iff (qualified name : String) :
    Text.endsWith ("::" ++ name) qualified = true ↔ EndsIn qualified name := by
  rw [Text.endsWith, List.isSuffixOf_iff_suffix]
  constructor
  · rintro ⟨scope, hscope⟩
    refine ⟨String.ofList scope, ?_⟩
    rw [← String.toList_inj]
    simpa using hscope.symm
  · rintro ⟨scope, rfl⟩
    exact ⟨scope.toList, by simp⟩

variable {t} {types : List (String × NodeId)} (htypes : types.Perm (typeTable t))
include htypes

/-- The entries for a suffix are one, exactly if one type name ends in it. -/
theorem filter_endsWith_eq_iff (name qualified : String) (target : NodeId) :
    (types.filter fun (other, _) => Text.endsWith ("::" ++ name) other) = [(qualified, target)] ↔
      EndsIn qualified name ∧ IsFirstType t qualified target ∧
        ∀ other, IsTypeName t other → EndsIn other name → other = qualified := by
  have hkeys : (types.map Prod.fst).Nodup := (htypes.map _).nodup_iff.mpr (nodup_keys_typeTable t)
  have hmem : ∀ other id, (other, id) ∈ types.filter (fun (other, _) => Text.endsWith ("::" ++ name) other) ↔
      IsFirstType t other id ∧ EndsIn other name := by
    intro other id
    rw [List.mem_filter, htypes.mem_iff, mem_typeTable_iff, endsWith_iff]
  rw [← List.perm_singleton, List.perm_ext_iff_of_nodup (hkeys.of_map.filter _) (List.nodup_singleton _)]
  constructor
  · intro h
    obtain ⟨hfirst, hends⟩ := (hmem qualified target).mp ((h _).mpr (List.mem_singleton_self _))
    refine ⟨hends, hfirst, fun other hother hother' => ?_⟩
    obtain ⟨id, hid⟩ := hother.exists_first
    have heq := List.mem_singleton.mp ((h (other, id)).mp ((hmem other id).mpr ⟨hid, hother'⟩))
    exact congrArg Prod.fst heq
  · rintro ⟨hends, hfirst, honly⟩ ⟨other, id⟩
    rw [hmem, List.mem_singleton]
    constructor
    · rintro ⟨hid, hother⟩
      obtain rfl := honly other hid.isTypeName hother
      rw [hid.unique hfirst]
    · rintro ⟨⟩
      exact ⟨hfirst, hends⟩

/-- A table of the types in any order finds what a name stands for. -/
theorem resolveType?_eq_some_iff (name : String) (target : NodeId) :
    resolveType? types name = some target ↔ Resolves t name target := by
  have hkeys : (types.map Prod.fst).Nodup := (htypes.map _).nodup_iff.mpr (nodup_keys_typeTable t)
  have hmem : ∀ qualified id, (qualified, id) ∈ types ↔ IsFirstType t qualified id :=
    fun qualified id => htypes.mem_iff.trans (mem_typeTable_iff t qualified id)
  unfold resolveType?
  cases hlookup : types.lookup name with
  | some id =>
    have hfirst := (hmem name id).mp (mem_of_lookup_eq_some hlookup)
    rw [Option.some.injEq]
    constructor
    · rintro rfl
      exact Or.inl hfirst
    · rintro (hexact | ⟨hnone, -⟩)
      · exact hfirst.unique hexact
      · exact absurd hfirst.isTypeName hnone
  | none =>
    have hnone : ¬ IsTypeName t name := by
      intro hname
      obtain ⟨id, hid⟩ := hname.exists_first
      rw [lookup_eq_some_of_mem hkeys ((hmem name id).mpr hid)] at hlookup
      cases hlookup
    dsimp only
    constructor
    · intro h
      split at h
      · rename_i qualified id hfilter
        cases h
        exact Or.inr ⟨hnone, qualified, (filter_endsWith_eq_iff htypes name qualified target).mp hfilter⟩
      · cases h
    · rintro (hexact | ⟨-, qualified, honly⟩)
      · exact absurd hexact.isTypeName hnone
      · rw [(filter_endsWith_eq_iff htypes name qualified target).mpr honly]

end Table

end Dump

end UnitFacts
