import Mathlib.Data.Finset.Card
import Mathlib.Logic.Relation
import UnitFacts.Dump.Redeclarations
import UnitFacts.Proofs.Lookup
import UnitFacts.Proofs.Unique

/-!
Groups of redeclarations, found in any order. Whatever the links, `Chain.grouping` puts no node into a group
that no link is about. Where the links run in no circle it gives up no chase, and it finds each group whole:
its first declaration and then its other members in the order of the search.
-/

namespace UnitFacts.Dump

/-- Following links from `id` leads to `last` and no further. -/
structure EndsAt (links : NodeId → NodeId → Prop) (id last : NodeId) : Prop where
  leads : Relation.ReflTransGen links id last
  ends : ∀ next, ¬ links last next

/-- No node leads back to itself. -/
def Acyclic (links : NodeId → NodeId → Prop) : Prop := ∀ id, ¬ Relation.TransGen links id id

theorem EndsAt.unique {links : NodeId → NodeId → Prop} (hlinks : Relator.RightUnique links)
    {id first second : NodeId} (hfirst : EndsAt links id first) (hsecond : EndsAt links id second) :
    first = second := by
  rcases Relation.ReflTransGen.total_of_right_unique hlinks hfirst.leads hsecond.leads with h | h
  · rcases h.cases_head with heq | ⟨next, hnext, -⟩
    · exact heq
    · exact absurd hnext (hfirst.ends next)
  · rcases h.cases_head with heq | ⟨next, hnext, -⟩
    · exact heq.symm
    · exact absurd hnext (hsecond.ends next)

/-- All nodes in groups are among the first `bound`. -/
def Within (bound : Nat) (groups : List (NodeId × List NodeId)) : Prop :=
  ∀ group ∈ groups, group.1 < bound ∧ ∀ id ∈ group.2, id < bound

namespace Grouping

variable {g : Grouping} {first id : NodeId}

theorem openGroup_of_mem (h : first ∈ g.groups.map (·.1)) : g.openGroup first = g := if_pos h

theorem openGroup_of_not_mem (h : first ∉ g.groups.map (·.1)) :
    g.openGroup first = { g with groups := g.groups ++ [(first, [])] } := if_neg h

theorem insert_of_mem (h : id ∈ g.members) : g.insert first id = g := if_pos h

theorem insert_of_not_mem (h : id ∉ g.members) :
    g.insert first id =
      { groups := g.groups.map fun group => if group.1 = first then (first, group.2 ++ [id]) else group
        members := id :: g.members } := if_neg h

/-- A new group is opened with its first declaration and one more node. -/
theorem open_insert_of_not_mem (hgroup : first ∉ g.groups.map (·.1)) (hfirst : first ∉ g.members)
    (hid : id ∉ g.members) (hne : first ≠ id) :
    ((g.openGroup first).insert first first).insert first id =
      { groups := g.groups ++ [(first, [first, id])], members := id :: first :: g.members } := by
  have hother : ∀ (change : NodeId × List NodeId → NodeId × List NodeId),
      (g.groups.map fun group => if group.1 = first then change group else group) = g.groups := by
    intro change
    conv_rhs => rw [← List.map_id g.groups]
    apply List.map_congr_left
    intro group hmem
    exact if_neg fun heq => hgroup (List.mem_map.mpr ⟨group, hmem, heq⟩)
  have hnot : id ∉ first :: g.members := by simp [hid, Ne.symm hne]
  rw [openGroup_of_not_mem hgroup, insert_of_not_mem (g := { g with groups := g.groups ++ [(first, [])] }) hfirst,
    insert_of_not_mem hnot]
  simp [hother]

section Within

variable {bound : Nat} (hg : Within bound g.groups) (hfirst : first < bound)
include hg hfirst

theorem within_openGroup : Within bound (g.openGroup first).groups := by
  unfold openGroup
  split
  · exact hg
  · exact List.forall_mem_append.mpr ⟨hg, List.forall_mem_singleton.mpr ⟨hfirst, List.forall_mem_nil _⟩⟩

theorem within_insert (hid : id < bound) : Within bound (g.insert first id).groups := by
  unfold insert
  split
  · exact hg
  · refine List.forall_mem_map.mpr fun group hgroup => ?_
    obtain ⟨hkey, hmembers⟩ := hg group hgroup
    split
    · exact ⟨hfirst, List.forall_mem_append.mpr ⟨hmembers, List.forall_mem_singleton.mpr hid⟩⟩
    · exact ⟨hkey, hmembers⟩

end Within

end Grouping

namespace Chain

/-- The node links to an earlier one. -/
def Links (chain : Chain) (id earlier : NodeId) : Prop := chain.lookup id = some earlier

/-- A group among some nodes that redeclare something: the first declaration, then its other members. -/
def groupIn (chain : Chain) (order : List NodeId) (first : NodeId) : List NodeId :=
  first :: order.filter fun id => chain.chased id = first

/-- The groups of some nodes that redeclare something, each under its first declaration. -/
def groupsIn (chain : Chain) (order : List NodeId) : List (NodeId × List NodeId) :=
  (firstByKey id [] (order.map chain.chased)).map fun first => (first, chain.groupIn order first)

variable {chain : Chain}

theorem rightUnique_links : Relator.RightUnique chain.Links :=
  fun _ _ _ h h' => Option.some.inj (h.symm.trans h')

theorem mem_redeclared (id : NodeId) : id ∈ chain.redeclared ↔ ∃ earlier, chain.Links id earlier := by
  simp only [redeclared, mem_firstByKey_id, List.map_reverse, List.mem_reverse, Links,
    ← Option.isSome_iff_exists, List.lookup_isSome_iff, List.mem_map, beq_iff_eq]
  exact exists_congr fun link => and_congr_right fun _ => eq_comm

/-- A node goes to the end of its group. -/
theorem groupIn_append_self (order : List NodeId) (node : NodeId) :
    chain.groupIn (order ++ [node]) (chain.chased node) = chain.groupIn order (chain.chased node) ++ [node] := by
  simp [groupIn]

theorem groupIn_append_of_ne (order : List NodeId) {node first : NodeId} (h : chain.chased node ≠ first) :
    chain.groupIn (order ++ [node]) first = chain.groupIn order first := by
  simp [groupIn, h]

/-- A node whose first declaration has a group already goes to the end of that group. -/
theorem groupsIn_append_of_mem {order : List NodeId} {node : NodeId}
    (h : chain.chased node ∈ order.map chain.chased) :
    chain.groupsIn (order ++ [node]) = (chain.groupsIn order).map fun group =>
      if group.1 = chain.chased node then (chain.chased node, group.2 ++ [node]) else group := by
  rw [groupsIn, groupsIn, List.map_append, List.map_singleton, firstByKey_append, if_pos (Or.inr (by simpa using h)),
    List.append_nil, List.map_map]
  apply List.map_congr_left
  intro first _
  by_cases hfirst : first = chain.chased node
  · simp [hfirst, groupIn_append_self]
  · simp [hfirst, groupIn_append_of_ne order (Ne.symm hfirst)]

/-- A node whose first declaration has no group yet opens one. -/
theorem groupsIn_append_of_not_mem {order : List NodeId} {node : NodeId}
    (h : chain.chased node ∉ order.map chain.chased) :
    chain.groupsIn (order ++ [node]) =
      chain.groupsIn order ++ [(chain.chased node, [chain.chased node, node])] := by
  have hnone : order.filter (fun id => chain.chased id = chain.chased node) = [] := by
    rw [List.filter_eq_nil_iff]
    intro id hid heq
    exact h (List.mem_map.mpr ⟨id, hid, of_decide_eq_true heq⟩)
  rw [groupsIn, groupsIn, List.map_append, List.map_singleton, firstByKey_append, if_neg (by simpa using h),
    List.map_append]
  congr 1
  · apply List.map_congr_left
    intro first hfirst
    have hne : chain.chased node ≠ first := by
      rintro rfl
      exact h ((mem_firstByKey_id _ _).mp hfirst)
    rw [groupIn_append_of_ne order hne]
  · simp [groupIn, hnone]

theorem map_fst_groupsIn (order : List NodeId) :
    (chain.groupsIn order).map (·.1) = firstByKey id [] (order.map chain.chased) := by
  simp [groupsIn, Function.comp_def]

section Within

variable {bound : Nat} (hc : ∀ link ∈ chain, link.1 < bound ∧ link.2 < bound)
include hc

theorem redeclared_lt {id : NodeId} (h : id ∈ chain.redeclared) : id < bound := by
  obtain ⟨link, hlink, rfl⟩ := List.mem_map.mp (mem_of_mem_firstByKey _ _ _ h)
  exact (hc link (List.mem_reverse.mp hlink)).1

theorem chase_lt (node : NodeId) (fuel : Nat) {id : NodeId} (hid : id < bound) :
    chain.chase node fuel id < bound := by
  induction fuel generalizing id with
  | zero => exact hid
  | succ fuel ih =>
    rw [chase]
    split
    · rename_i earlier hlookup
      split
      · exact hid
      · exact ih (hc _ (mem_of_lookup_eq_some hlookup)).2
    · exact hid

theorem chased_lt {node : NodeId} (hnode : node < bound) : chain.chased node < bound := by
  unfold chased
  split
  · rename_i previous hlookup
    exact chase_lt hc node _ (hc _ (mem_of_lookup_eq_some hlookup)).2
  · exact hnode

theorem within_join {g : Grouping} (hg : Within bound g.groups) {node : NodeId} (hnode : node < bound) :
    Within bound (chain.join g node).groups := by
  have hfirst := chased_lt hc hnode
  have hopened := Grouping.within_openGroup hg hfirst
  exact Grouping.within_insert (Grouping.within_insert hopened hfirst hfirst) hfirst hnode

/-- The search puts no node into a group but those that the links are about, links in circles included. -/
theorem within_grouping {order : List NodeId} (horder : ∀ id ∈ order, id < bound) :
    Within bound (chain.grouping order).groups := by
  induction order using List.reverseRecOn with
  | nil => exact List.forall_mem_nil _
  | append_singleton order node ih =>
    obtain ⟨hread, hnode⟩ := List.forall_mem_append.mp horder
    rw [grouping, List.foldl_append]
    exact within_join hc (ih hread) (hnode node (List.mem_singleton_self node))

end Within

section Acyclic

variable (hac : Acyclic chain.Links)
include hac

/-- Of the nodes that have a link, fewer can be reached after a link than before it. -/
theorem exists_rank : ∃ rank : NodeId → Nat, (∀ id, rank id ≤ chain.redeclared.length) ∧
    ∀ id earlier, chain.Links id earlier → rank earlier < rank id := by
  classical
  refine ⟨fun id => (chain.redeclared.toFinset.filter (Relation.ReflTransGen chain.Links id)).card, ?_, ?_⟩
  · intro id
    exact (Finset.card_filter_le _ _).trans (List.toFinset_card_le _)
  · intro id earlier hlink
    apply Finset.card_lt_card
    refine ⟨fun k hk => ?_, fun hback => ?_⟩
    · rw [Finset.mem_filter] at hk ⊢
      exact ⟨hk.1, hk.2.head hlink⟩
    · have hid : id ∈ chain.redeclared.toFinset.filter (Relation.ReflTransGen chain.Links id) := by
        rw [Finset.mem_filter, List.mem_toFinset, mem_redeclared]
        exact ⟨⟨earlier, hlink⟩, Relation.ReflTransGen.refl⟩
      exact hac id (Relation.TransGen.head' hlink (Finset.mem_filter.mp (hback hid)).2)

/-- A chase that starts behind its node is not given up: no link leads back to the node, and there are links to
follow for each step. -/
theorem endsAt_chase {node id : NodeId} (h : Relation.TransGen chain.Links node id) {fuel : Nat}
    (hfuel : chain.redeclared.length ≤ fuel) : EndsAt chain.Links id (chain.chase node fuel id) := by
  obtain ⟨rank, hbound, hrank⟩ := exists_rank hac
  replace hfuel := (hbound id).trans hfuel
  induction fuel generalizing id with
  | zero =>
    refine ⟨Relation.ReflTransGen.refl, fun next hnext => ?_⟩
    exact Nat.not_lt_zero _ ((hrank id next hnext).trans_le hfuel)
  | succ fuel ih =>
    rw [chase]
    split
    · rename_i earlier hlink
      have hback : earlier ≠ node := by
        rintro rfl
        exact hac earlier (h.tail hlink)
      have hend := ih (h.tail hlink) (Nat.le_of_lt_succ ((hrank id earlier hlink).trans_le hfuel))
      rw [if_neg hback]
      exact ⟨hend.leads.head hlink, hend.ends⟩
    · rename_i hnone
      refine ⟨Relation.ReflTransGen.refl, fun next hnext => ?_⟩
      cases hnone.symm.trans hnext

theorem endsAt_chased (id : NodeId) : EndsAt chain.Links id (chain.chased id) := by
  unfold chased
  split
  · rename_i previous hlink
    have hend := endsAt_chase hac (.single hlink) (Nat.le_succ chain.redeclared.length)
    exact ⟨hend.leads.head hlink, hend.ends⟩
  · rename_i hnone
    refine ⟨Relation.ReflTransGen.refl, fun next hnext => ?_⟩
    cases hnone.symm.trans hnext

theorem chased_eq_iff (id last : NodeId) : chain.chased id = last ↔ EndsAt chain.Links id last := by
  constructor
  · rintro rfl
    exact endsAt_chased hac id
  · exact fun h => (endsAt_chased hac id).unique rightUnique_links h

theorem chased_not_mem_redeclared (id : NodeId) : chain.chased id ∉ chain.redeclared := by
  rw [mem_redeclared]
  rintro ⟨next, hnext⟩
  exact (endsAt_chased hac id).ends next hnext

theorem chased_of_not_mem {id : NodeId} (h : id ∉ chain.redeclared) : chain.chased id = id := by
  rw [chased_eq_iff hac]
  exact ⟨Relation.ReflTransGen.refl, fun next hnext => h ((mem_redeclared id).mpr ⟨next, hnext⟩)⟩

theorem chased_chased (id : NodeId) : chain.chased (chain.chased id) = chain.chased id :=
  chased_of_not_mem hac (chased_not_mem_redeclared hac id)

/-! ### The search -/

/-- The search through nodes that redeclare something finds their groups. -/
theorem grouping_eq {order : List NodeId} (hnodup : order.Nodup) (horder : ∀ id ∈ order, id ∈ chain.redeclared) :
    (chain.grouping order).groups = chain.groupsIn order ∧
      ∀ id, id ∈ (chain.grouping order).members ↔ id ∈ order ∨ id ∈ order.map chain.chased := by
  induction order using List.reverseRecOn with
  | nil => exact ⟨rfl, by simp [grouping]⟩
  | append_singleton order node ih =>
    obtain ⟨hnodup, -, hdisjoint⟩ := List.nodup_append.mp hnodup
    have hnew : node ∉ order := fun h => hdisjoint node h node (List.mem_singleton_self node) rfl
    obtain ⟨hgroups, hmembers⟩ := ih hnodup fun id hid => horder id (List.mem_append_left _ hid)
    have hnode := horder node (List.mem_append_right _ (List.mem_singleton_self node))
    -- a node that redeclares something is never the first declaration of a group
    have hlater : ∀ id, chain.chased id ≠ node := fun id heq => chased_not_mem_redeclared hac id (heq ▸ hnode)
    have hfirst : chain.chased node ∉ order := fun h =>
      chased_not_mem_redeclared hac node (horder _ (List.mem_append_left _ h))
    have hput : node ∉ (chain.grouping order).members := by
      simpa [hmembers, hnew] using fun id _ => hlater id
    have hopened : chain.chased node ∈ (chain.grouping order).groups.map (·.1) ↔
        chain.chased node ∈ order.map chain.chased := by
      rw [hgroups, map_fst_groupsIn, mem_firstByKey_id]
    have hthere : chain.chased node ∈ (chain.grouping order).members ↔
        chain.chased node ∈ order.map chain.chased := by
      simp [hmembers, hfirst]
    have hstep : chain.grouping (order ++ [node]) = chain.join (chain.grouping order) node := by
      simp [grouping]
    rw [hstep, join]
    by_cases hmem : chain.chased node ∈ order.map chain.chased
    · rw [Grouping.openGroup_of_mem (hopened.mpr hmem), Grouping.insert_of_mem (hthere.mpr hmem),
        Grouping.insert_of_not_mem hput, groupsIn_append_of_mem hmem, hgroups]
      refine ⟨rfl, fun id => ?_⟩
      rw [List.mem_cons, hmembers]
      grind
    · rw [Grouping.open_insert_of_not_mem (mt hopened.mp hmem) (mt hthere.mp hmem) hput (hlater node),
        groupsIn_append_of_not_mem hmem, hgroups]
      refine ⟨rfl, fun id => ?_⟩
      rw [List.mem_cons, List.mem_cons, hmembers]
      grind

end Acyclic

end Chain

end UnitFacts.Dump
