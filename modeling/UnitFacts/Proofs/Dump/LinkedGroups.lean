import Mathlib.Data.List.Find
import UnitFacts.Proofs.Dump.Grouping
import UnitFacts.Proofs.Tree.Standing

/-!
What linking groups makes of a tree. Groups that share no node make each node a member of the one that it is
in. The groups of links that run in no circle share none, and if they leave no choice of their definitions, the
order in which they are found and linked does not matter.
-/

namespace UnitFacts

open UnitFacts.Tree

/-- The node as a member of a group. -/
def Node.joined (first : NodeId) (definition : Option NodeId) (n : Node) : Node :=
  { n with canonical := some first, definition := definition.or n.definition }

namespace Dump

section Groups

variable (t : Tree) (k : NodeId)

theorem Node.joined_joined (first : NodeId) (definition : Option NodeId) (n : UnitFacts.Node) :
    (n.joined first definition).joined first definition = n.joined first definition := by
  cases definition <;> rfl

theorem node?_linkMember (first : NodeId) (definition : Option NodeId) (member : NodeId) :
    (linkMember first definition t member).node? k =
      if member = k then (t.node? k).map (UnitFacts.Node.joined first definition) else t.node? k := by
  unfold linkMember
  cases definition with
  | none => exact t.node?_modify member _ k
  | some definition =>
    simp only [setDefinition, setCanonical, node?_modify]
    split
    · rw [Option.map_map]
      rfl
    · rfl

theorem node?_foldl_linkMember (first : NodeId) (definition : Option NodeId) (members : List NodeId) :
    (members.foldl (linkMember first definition) t).node? k =
      if k ∈ members then (t.node? k).map (UnitFacts.Node.joined first definition) else t.node? k := by
  induction members generalizing t with
  | nil => simp
  | cons member rest ih =>
    rw [List.foldl_cons, ih, node?_linkMember]
    by_cases hmember : member = k
    · subst hmember
      simp only [if_true, List.mem_cons_self, Option.map_map]
      split
      · congr 1
        funext n
        exact Node.joined_joined first definition n
      · rfl
    · simp [hmember, Ne.symm hmember]

theorem isDefinition_foldl_linkMember (first : NodeId) (definition : Option NodeId) (members : List NodeId) :
    (members.foldl (linkMember first definition) t).isDefinition = t.isDefinition := by
  funext k
  rw [isDefinition, node?_foldl_linkMember, isDefinition]
  split
  · cases t.node? k <;> rfl
  · rfl

theorem isDefinition_linkGroups (groups : List (NodeId × List NodeId)) :
    (linkGroups t groups).isDefinition = t.isDefinition := by
  induction groups generalizing t with
  | nil => rfl
  | cons group rest ih => exact (ih _).trans (isDefinition_foldl_linkMember t _ _ _)

/-- A node becomes a member of the one group that it is in, if it is in any. -/
theorem node?_linkGroups {groups : List (NodeId × List NodeId)}
    (h : groups.Pairwise fun group other => group.2.Disjoint other.2) :
    (linkGroups t groups).node? k =
      match groups.find? fun group => decide (k ∈ group.2) with
      | some group => (t.node? k).map (UnitFacts.Node.joined group.1 (group.2.find? t.isDefinition))
      | none => t.node? k := by
  induction groups generalizing t with
  | nil => rfl
  | cons group rest ih =>
    obtain ⟨hgroup, hrest⟩ := List.pairwise_cons.mp h
    rw [linkGroups, List.foldl_cons, ← linkGroups, ih _ hrest, isDefinition_foldl_linkMember,
      node?_foldl_linkMember]
    by_cases hk : k ∈ group.2
    · have hnone : rest.find? (fun other => decide (k ∈ other.2)) = none := by
        rw [List.find?_eq_none]
        intro other hother hmem
        exact hgroup other hother hk (of_decide_eq_true hmem)
      have hhead : (group :: rest).find? (fun other => decide (k ∈ other.2)) = some group := by simp [hk]
      rw [hnone, hhead]
      exact if_pos hk
    · have hskip : (group :: rest).find? (fun other => decide (k ∈ other.2)) =
          rest.find? fun other => decide (k ∈ other.2) := by simp [hk]
      rw [hskip, if_neg hk]

theorem rest_foldl_linkMember (first : NodeId) (definition : Option NodeId) (members : List NodeId) :
    { List.foldl (linkMember first definition) t members with nodes := #[] } = { t with nodes := #[] } := by
  induction members generalizing t with
  | nil => rfl
  | cons member rest ih =>
    rw [List.foldl_cons]
    refine (ih _).trans ?_
    cases definition <;> rfl

theorem rest_linkGroups (groups : List (NodeId × List NodeId)) :
    { linkGroups t groups with nodes := #[] } = { t with nodes := #[] } := by
  induction groups generalizing t with
  | nil => rfl
  | cons group rest ih => exact (ih _).trans (rest_foldl_linkMember t _ _ _)

end Groups

namespace Chain

/-- No two definitions have the same first declaration, unless that is a definition itself. -/
def DefinedOnce (chain : Chain) (t : Tree) : Prop :=
  ∀ first, t.isDefinition first = true ∨
    ∀ a b, chain.chased a = first → chain.chased b = first → t.isDefinition a = true →
      t.isDefinition b = true → a = b

variable {chain : Chain} (hac : Acyclic chain.Links)
include hac

/-- All members of a group have its first declaration. -/
theorem chased_of_mem_groupIn {order : List NodeId} (k : NodeId) {id : NodeId}
    (h : id ∈ chain.groupIn order (chain.chased k)) :
    chain.chased id = chain.chased k := by
  rcases List.mem_cons.mp h with rfl | hmem
  · exact chased_chased hac k
  · exact of_decide_eq_true (List.mem_filter.mp hmem).2

theorem chased_of_mem_groupsIn {order : List NodeId} {group : NodeId × List NodeId}
    (hgroup : group ∈ chain.groupsIn order) {id : NodeId} (hid : id ∈ group.2) : chain.chased id = group.1 := by
  obtain ⟨first, hfirst, rfl⟩ := List.mem_map.mp hgroup
  obtain ⟨node, -, rfl⟩ := List.mem_map.mp ((mem_firstByKey_id _ _).mp hfirst)
  exact chased_of_mem_groupIn hac node hid

theorem pairwise_groupsIn (order : List NodeId) :
    (chain.groupsIn order).Pairwise fun group other => group.2.Disjoint other.2 := by
  have hkeys : ((chain.groupsIn order).map (·.1)).Nodup := by
    rw [map_fst_groupsIn]
    exact nodup_firstByKey_id _
  refine (List.pairwise_map.mp hkeys).imp_of_mem fun hgroup hother hne => ?_
  intro id hid hid'
  exact hne ((chased_of_mem_groupsIn hac hgroup hid).symm.trans (chased_of_mem_groupsIn hac hother hid'))

/-- What linking the groups, listed in any order, makes of a node. -/
theorem node?_linkGroups_perm {order : List NodeId} (horder : order.Perm chain.redeclared)
    {groups : List (NodeId × List NodeId)} (hgroups : groups.Perm (chain.groupsIn order)) (t : Tree)
    (k : NodeId) :
    (linkGroups t groups).node? k =
      if chain.chased k ∈ order.map chain.chased then
        (t.node? k).map (UnitFacts.Node.joined (chain.chased k)
          ((chain.groupIn order (chain.chased k)).find? t.isDefinition))
      else t.node? k := by
  have hdisjoint := (hgroups.pairwise_iff fun h => h.symm).mpr (pairwise_groupsIn hac order)
  rw [node?_linkGroups t k hdisjoint]
  split
  · rename_i group hfound
    have hgroup := hgroups.mem_iff.mp (List.mem_of_find?_eq_some hfound)
    have hin : k ∈ group.2 := by simpa using List.find?_some hfound
    have hk := chased_of_mem_groupsIn hac hgroup hin
    obtain ⟨first, hfirst, rfl⟩ := List.mem_map.mp hgroup
    rw [hk, if_pos ((mem_firstByKey_id _ _).mp hfirst)]
  · rename_i hnone
    rw [List.find?_eq_none] at hnone
    rw [if_neg fun hmem => ?_]
    refine hnone _ (hgroups.mem_iff.mpr (List.mem_map.mpr ⟨_, (mem_firstByKey_id _ _).mpr hmem, rfl⟩)) ?_
    by_cases hk : k ∈ chain.redeclared
    · simp [groupIn, horder.mem_iff.mpr hk]
    · simp [groupIn, chased_of_not_mem hac hk]

/-- Where the groups leave no choice of their definitions, the order in which they are found and linked does
not matter. -/
theorem linkGroups_eq {t : Tree} (hone : chain.DefinedOnce t) {order : List NodeId}
    (horder : order.Perm chain.redeclared) {groups : List (NodeId × List NodeId)}
    (hgroups : groups.Perm (chain.groupsIn order)) :
    linkGroups t groups = linkGroups t (chain.groupsIn chain.redeclared) := by
  refine eq_of_node?_eq (fun k => ?_) ((rest_linkGroups t _).trans (rest_linkGroups t _).symm)
  rw [node?_linkGroups_perm hac horder hgroups, node?_linkGroups_perm hac (.refl _) (.refl _)]
  have hdefinition : (chain.groupIn order (chain.chased k)).find? t.isDefinition =
      (chain.groupIn chain.redeclared (chain.chased k)).find? t.isDefinition := by
    rcases hone (chain.chased k) with hfirst | hunique
    · rw [groupIn, groupIn, List.find?_cons_of_pos hfirst, List.find?_cons_of_pos hfirst]
    · refine List.find?_eq_find?_of_perm ((horder.filter _).cons _) ?_
      rintro a ⟨ha, hdefinition⟩ b ⟨hb, hdefinition'⟩
      exact hunique a b (chased_of_mem_groupIn hac k ha) (chased_of_mem_groupIn hac k hb) hdefinition hdefinition'
  rw [hdefinition]
  simp only [(horder.map chain.chased).mem_iff]

/-- The group of a node consists of all nodes with the same first declaration. -/
theorem mem_groupIn_iff (k id : NodeId) :
    id ∈ chain.groupIn chain.redeclared (chain.chased k) ↔ chain.chased id = chain.chased k := by
  refine ⟨chased_of_mem_groupIn hac k, fun heq => ?_⟩
  by_cases hid : id ∈ chain.redeclared
  · exact List.mem_cons_of_mem _ (List.mem_filter.mpr ⟨hid, decide_eq_true heq⟩)
  · rw [← heq, chased_of_not_mem hac hid]
    exact List.mem_cons_self

theorem mem_map_chased_iff (first : NodeId) :
    first ∈ chain.redeclared.map chain.chased ↔ ∃ other, other ≠ first ∧ chain.chased other = first := by
  rw [List.mem_map]
  refine exists_congr fun other => and_congr_left fun heq => ⟨fun hother => ?_, fun hne => ?_⟩
  · rintro rfl
    exact chased_not_mem_redeclared hac other (heq.symm ▸ hother)
  · by_contra hother
    exact hne ((chased_of_not_mem hac hother).symm.trans heq)

/-- The definition that a group is linked to: the first declaration, if it is one, or else the only one there
is. -/
theorem find?_groupIn_eq_some_iff {t : Tree} (hone : chain.DefinedOnce t) (k definition : NodeId) :
    (chain.groupIn chain.redeclared (chain.chased k)).find? t.isDefinition = some definition ↔
      chain.chased definition = chain.chased k ∧ t.isDefinition definition = true ∧
        (t.isDefinition (chain.chased k) = true → definition = chain.chased k) := by
  constructor
  · intro hfound
    refine ⟨(mem_groupIn_iff hac k definition).mp (List.mem_of_find?_eq_some hfound), List.find?_some hfound, ?_⟩
    intro hfirst
    rw [groupIn, List.find?_cons_of_pos hfirst] at hfound
    exact (Option.some.inj hfound).symm
  · rintro ⟨hin, hdefinition, hfirst⟩
    rcases hone (chain.chased k) with hdefining | hunique
    · rw [groupIn, List.find?_cons_of_pos hdefining, hfirst hdefining]
    · have hmem := (mem_groupIn_iff hac k definition).mpr hin
      obtain ⟨found, hfound⟩ :=
        Option.isSome_iff_exists.mp (List.find?_isSome.mpr ⟨definition, hmem, hdefinition⟩)
      have hfoundIn := (mem_groupIn_iff hac k found).mp (List.mem_of_find?_eq_some hfound)
      rw [hfound, hunique found definition hfoundIn hin (List.find?_some hfound) hdefinition]

end Chain

end Dump

end UnitFacts
