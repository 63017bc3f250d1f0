import Mathlib.Data.List.Nodup
import UnitFacts.Callee
import UnitFacts.Proofs.Tree.Check
import UnitFacts.Tree.Walk

/-!
Walks of a well-formed tree. Children lists may run in circles in parts of the table that the root
does not reach; from the root they cannot. Every node has at most one parent and the root has none,
so a node has at most one path to the root, no path repeats a node, and none is as long as the table.
Hence the walk meets each node that the root reaches once, and a bound on its depth that is at least
the size of the table is never felt, neither by the walk nor by the search for a callee.
-/

namespace UnitFacts.Tree

theorem mem_allChildren_iff (t : Tree) (child : NodeId) :
    child ∈ t.allChildren ↔ ∃ parent, child ∈ t.children parent := by
  simp only [allChildren, List.mem_flatMap, mem_nodes_iff]
  constructor
  · rintro ⟨n, ⟨parent, hn⟩, hc⟩
    exact ⟨parent, by simpa [children, hn] using hc⟩
  · rintro ⟨parent, hc⟩
    cases hn : t.node? parent with
    | none => simp [children, hn] at hc
    | some n => exact ⟨n, ⟨parent, hn⟩, by simpa [children, hn] using hc⟩

/-- No node is a child twice if and only if no list repeats a child and no two nodes share one. -/
theorem nodup_allChildren_iff (t : Tree) : t.allChildren.Nodup ↔
    (∀ parent, (t.children parent).Nodup) ∧
      ∀ p q child, child ∈ t.children p → child ∈ t.children q → p = q := by
  have hnodes : ∀ k (hk : k < t.nodes.toList.length), t.children k = t.nodes.toList[k].children := by
    intro k hk
    simp [children, node?, Array.getElem?_eq_getElem (show k < t.nodes.size by simpa using hk)]
  have hlt : ∀ k child, child ∈ t.children k → k < t.nodes.toList.length := by
    intro k child hk
    cases hn : t.node? k with
    | none => simp [children, hn] at hk
    | some n => simpa [size] using lt_size_of_node? hn
  rw [allChildren, List.nodup_flatMap, List.pairwise_iff_getElem, List.forall_mem_iff_getElem]
  constructor
  · rintro ⟨heach, hdisjoint⟩
    constructor
    · intro parent
      by_cases hp : parent < t.nodes.toList.length
      · exact hnodes parent hp ▸ heach parent hp
      · rw [List.eq_nil_iff_forall_not_mem.mpr fun child hchild => hp (hlt parent child hchild)]
        exact List.nodup_nil
    · intro p q child hp hq
      have hpl := hlt p child hp
      have hql := hlt q child hq
      rw [hnodes p hpl] at hp
      rw [hnodes q hql] at hq
      rcases Nat.lt_trichotomy p q with hpq | heq | hqp
      · exact absurd hq (hdisjoint p q hpl hql hpq hp)
      · exact heq
      · exact absurd hp (hdisjoint q p hql hpl hqp hq)
  · rintro ⟨heach, hone⟩
    refine ⟨fun k hk => hnodes k hk ▸ heach k, fun p q hp hq hpq child hchild hother => ?_⟩
    exact Nat.ne_of_lt hpq (hone p q child (hnodes p hp ▸ hchild) (hnodes q hq ▸ hother))

/-- `path` leads from a node up to the root, innermost ancestor first. -/
inductive RootPath (t : Tree) : NodeId → List NodeId → Prop
  | root : RootPath t t.root []
  | child {parent child : NodeId} {path : List NodeId} :
      RootPath t parent path → child ∈ t.children parent → RootPath t child (parent :: path)

/-- What children lists reach from the root. -/
def Reaches (t : Tree) (id : NodeId) : Prop :=
  Relation.ReflTransGen (fun parent child => child ∈ t.children parent) t.root id

theorem reaches_iff (t : Tree) (id : NodeId) : t.Reaches id ↔ ∃ path, t.RootPath id path := by
  constructor
  · intro h
    induction h with
    | refl => exact ⟨[], .root⟩
    | @tail parent id _ hstep ih =>
      obtain ⟨path, hpath⟩ := ih
      exact ⟨parent :: path, hpath.child hstep⟩
  · rintro ⟨path, hpath⟩
    induction hpath with
    | root => exact Relation.ReflTransGen.refl
    | child _ hstep ih => exact ih.tail hstep

theorem RootPath.of_mem {t : Tree} {id k : NodeId} {path : List NodeId} (h : t.RootPath id path)
    (hk : k ∈ path) : ∃ above, t.RootPath k above ∧ above.length < path.length := by
  induction h with
  | root => simp at hk
  | @child parent id path hparent _ ih =>
    rcases List.mem_cons.mp hk with rfl | htail
    · exact ⟨path, hparent, by simp⟩
    · obtain ⟨above, habove, hlen⟩ := ih htail
      exact ⟨above, habove, Nat.lt_succ_of_lt hlen⟩

namespace WellFormed

variable {t : Tree} (ht : t.WellFormed)
include ht

theorem isScoped : t.Scoped := t.scoped_of_links ht.links_lt ht.scopes_end

theorem child_lt {parent child : NodeId} (h : child ∈ t.children parent) : child < t.size :=
  ht.children_lt child ((t.mem_allChildren_iff child).mpr ⟨parent, h⟩)

theorem root_not_mem_children (parent : NodeId) : t.root ∉ t.children parent :=
  fun h => ht.root_not_child ((t.mem_allChildren_iff t.root).mpr ⟨parent, h⟩)

theorem nodup_children (parent : NodeId) : (t.children parent).Nodup :=
  (t.nodup_allChildren_iff.mp ht.children_nodup).1 parent

theorem parent_unique {p q child : NodeId} (hp : child ∈ t.children p) (hq : child ∈ t.children q) :
    p = q := (t.nodup_allChildren_iff.mp ht.children_nodup).2 p q child hp hq

theorem rootPath_lt {id : NodeId} {path : List NodeId} (h : t.RootPath id path) : id < t.size := by
  cases h with
  | root => exact ht.root_lt
  | child _ hc => exact ht.child_lt hc

theorem rootPath_unique {id : NodeId} {path other : List NodeId} (h : t.RootPath id path)
    (h' : t.RootPath id other) : path = other := by
  induction h generalizing other with
  | root =>
    cases h' with
    | root => rfl
    | child _ hc => exact absurd hc (ht.root_not_mem_children _)
  | child hparent hc ih =>
    cases h' with
    | root => exact absurd hc (ht.root_not_mem_children _)
    | child hparent' hc' =>
      obtain rfl := ht.parent_unique hc hc'
      rw [ih hparent']

/-- A node that stood on its own path would have two paths, one longer than the other. -/
theorem rootPath_nodup {id : NodeId} {path : List NodeId} (h : t.RootPath id path) :
    (id :: path).Nodup := by
  induction h with
  | root => simp
  | @child parent child path hparent hc ih =>
    rw [List.nodup_cons]
    refine ⟨?_, ih⟩
    intro hmem
    obtain ⟨above, habove, hlen⟩ := (hparent.child hc).of_mem hmem
    rw [ht.rootPath_unique habove (hparent.child hc)] at hlen
    exact Nat.lt_irrefl _ hlen

theorem rootPath_mem_lt {id k : NodeId} {path : List NodeId} (h : t.RootPath id path)
    (hk : k ∈ path) :
    k < t.size := by
  obtain ⟨above, habove, -⟩ := h.of_mem hk
  exact ht.rootPath_lt habove

theorem rootPath_length_lt {id : NodeId} {path : List NodeId} (h : t.RootPath id path) :
    path.length < t.size := by
  apply t.length_le_size (id :: path) (ht.rootPath_nodup h)
  intro k hk
  rcases List.mem_cons.mp hk with rfl | htail
  · exact ht.rootPath_lt h
  · exact ht.rootPath_mem_lt h htail

end WellFormed

theorem visitsBelow_zero (t : Tree) (keep : NodeId → Bool) (path : List NodeId) (id : NodeId) :
    t.visitsBelow keep 0 path id = [] := by rw [visitsBelow]

theorem visitsBelow_succ (t : Tree) (keep : NodeId → Bool) (fuel : Nat) (path : List NodeId)
    (id : NodeId) :
    t.visitsBelow keep (fuel + 1) path id =
      if keep id then
        ⟨id, path⟩ :: (t.children id).flatMap fun child => t.visitsBelow keep fuel (id :: path) child
      else [] := by
  rw [visitsBelow]

/-- A visit below a node is the node's own or comes from one of its children. -/
theorem mem_visitsBelow_succ (t : Tree) (keep : NodeId → Bool) (fuel : Nat) (path : List NodeId)
    (id : NodeId) (v : Visit) :
    v ∈ t.visitsBelow keep (fuel + 1) path id ↔
      keep id = true ∧ (v = ⟨id, path⟩ ∨
        ∃ child ∈ t.children id, v ∈ t.visitsBelow keep fuel (id :: path) child) := by
  rw [visitsBelow_succ]
  by_cases h : keep id <;> simp [h]

theorem rootPath_of_mem_visitsBelow (t : Tree) (keep : NodeId → Bool) (fuel : Nat)
    (path : List NodeId)
    (id : NodeId) (hpath : t.RootPath id path) (v : Visit) (hv : v ∈ t.visitsBelow keep fuel path id) :
    t.RootPath v.node v.path := by
  induction fuel generalizing path id with
  | zero => simp [visitsBelow_zero] at hv
  | succ fuel ih =>
    obtain ⟨-, rfl | ⟨child, hc, hv⟩⟩ := (t.mem_visitsBelow_succ keep fuel path id v).mp hv
    · exact hpath
    · exact ih (id :: path) child (hpath.child hc) hv

theorem keep_of_mem_visitsBelow (t : Tree) (keep : NodeId → Bool) (fuel : Nat) (path : List NodeId)
    (id : NodeId) (hpath : ∀ k ∈ path, keep k = true) (v : Visit)
    (hv : v ∈ t.visitsBelow keep fuel path id) : ∀ k ∈ v.node :: v.path, keep k = true := by
  induction fuel generalizing path id with
  | zero => simp [visitsBelow_zero] at hv
  | succ fuel ih =>
    obtain ⟨hkeep, hv⟩ := (t.mem_visitsBelow_succ keep fuel path id v).mp hv
    have hcons : ∀ k ∈ id :: path, keep k = true := List.forall_mem_cons.mpr ⟨hkeep, hpath⟩
    rcases hv with rfl | ⟨child, _, hv⟩
    · exact hcons
    · exact ih (id :: path) child hcons hv

/-- Every visit below a node passes through it. -/
theorem suffix_of_mem_visitsBelow (t : Tree) (keep : NodeId → Bool) (fuel : Nat)
    (path : List NodeId)
    (id : NodeId) (v : Visit) (hv : v ∈ t.visitsBelow keep fuel path id) :
    id :: path <:+ v.node :: v.path := by
  induction fuel generalizing path id with
  | zero => simp [visitsBelow_zero] at hv
  | succ fuel ih =>
    obtain ⟨-, rfl | ⟨child, _, hv⟩⟩ := (t.mem_visitsBelow_succ keep fuel path id v).mp hv
    · exact List.suffix_refl _
    · exact (List.suffix_cons child (id :: path)).trans (ih (id :: path) child hv)

theorem visitsBelow_disjoint (t : Tree) (keep : NodeId → Bool) (fuel : Nat) (path : List NodeId)
    {a b : NodeId} (h : a ≠ b) :
    List.Disjoint (t.visitsBelow keep fuel path a) (t.visitsBelow keep fuel path b) := by
  intro v hva hvb
  have ha := t.suffix_of_mem_visitsBelow keep fuel path a v hva
  have hb := t.suffix_of_mem_visitsBelow keep fuel path b v hvb
  have heq := (List.suffix_of_suffix_length_le ha hb (by simp)).eq_of_length (by simp)
  injection heq with hab
  exact h hab

/-- One more level is enough to go on from a visited node to its children. -/
theorem child_mem_visitsBelow (t : Tree) (keep : NodeId → Bool) (fuel : Nat) (path : List NodeId)
    (id : NodeId) (v : Visit) (hv : v ∈ t.visitsBelow keep fuel path id) (child : NodeId)
    (hc : child ∈ t.children v.node) (hkeep : keep child = true) :
    ⟨child, v.node :: v.path⟩ ∈ t.visitsBelow keep (fuel + 1) path id := by
  induction fuel generalizing path id with
  | zero => simp [visitsBelow_zero] at hv
  | succ fuel ih =>
    obtain ⟨hid, hv⟩ := (t.mem_visitsBelow_succ keep fuel path id v).mp hv
    rw [mem_visitsBelow_succ]
    refine ⟨hid, Or.inr ?_⟩
    rcases hv with rfl | ⟨k, hk, hv⟩
    · exact ⟨child, hc, (t.mem_visitsBelow_succ keep fuel _ child _).mpr ⟨hkeep, Or.inl rfl⟩⟩
    · exact ⟨k, hk, ih (id :: path) k hv⟩

namespace WellFormed

variable {t : Tree} (ht : t.WellFormed)
include ht

/-- What stands at the end of a path is reached with whatever the path leaves of the table. -/
theorem visitsBelow_eq (keep : NodeId → Bool) (fuel fuel' : Nat) (path : List NodeId) (id : NodeId)
    (hpath : t.RootPath id path) (h : t.size ≤ fuel + path.length) (h' : t.size ≤ fuel' + path.length) :
    t.visitsBelow keep fuel path id = t.visitsBelow keep fuel' path id := by
  have hlen := ht.rootPath_length_lt hpath
  induction fuel generalizing fuel' path id with
  | zero => omega
  | succ fuel ih =>
    cases fuel' with
    | zero => omega
    | succ fuel' =>
      have hbelow : ∀ child ∈ t.children id,
          t.visitsBelow keep fuel (id :: path) child = t.visitsBelow keep fuel' (id :: path) child := by
        intro child hc
        have hchild := hpath.child hc
        exact ih fuel' (id :: path) child hchild (by simp; omega) (by simp; omega)
          (ht.rootPath_length_lt hchild)
      rw [visitsBelow_succ, visitsBelow_succ, List.flatMap_congr hbelow]

theorem visitsBelow_root_eq (keep : NodeId → Bool) {fuel : Nat} (h : t.size ≤ fuel) :
    t.visitsBelow keep fuel [] t.root = t.visits keep :=
  ht.visitsBelow_eq keep fuel t.size [] t.root .root h (Nat.le_refl _)

/-- The walk visits the nodes that have a path to the root on which all nodes are kept. -/
theorem mem_visits_iff (keep : NodeId → Bool) (v : Visit) :
    v ∈ t.visits keep ↔ t.RootPath v.node v.path ∧ ∀ k ∈ v.node :: v.path, keep k = true := by
  constructor
  · intro hv
    exact ⟨t.rootPath_of_mem_visitsBelow keep t.size [] t.root .root v hv,
      t.keep_of_mem_visitsBelow keep t.size [] t.root (by simp) v hv⟩
  · obtain ⟨id, path⟩ := v
    rintro ⟨hpath, hkeep⟩
    simp only at hpath hkeep
    rw [← ht.visitsBelow_root_eq keep (Nat.le_succ _)]
    induction hpath with
    | root => exact (t.mem_visitsBelow_succ keep t.size [] t.root _).mpr ⟨hkeep t.root (by simp), Or.inl rfl⟩
    | @child parent child path _ hc ih =>
      have hparent := ih fun k hk => hkeep k (List.mem_cons_of_mem _ hk)
      rw [ht.visitsBelow_root_eq keep (Nat.le_succ _)] at hparent
      exact t.child_mem_visitsBelow keep t.size [] t.root _ hparent child hc (hkeep child (by simp))

theorem mem_allVisits_iff (v : Visit) : v ∈ t.allVisits ↔ t.RootPath v.node v.path := by
  simp [allVisits, ht.mem_visits_iff]

theorem mem_nodes_allVisits_iff (id : NodeId) : id ∈ t.allVisits.map (·.node) ↔ t.Reaches id := by
  rw [reaches_iff, List.mem_map]
  constructor
  · rintro ⟨v, hv, rfl⟩
    exact ⟨v.path, (ht.mem_allVisits_iff v).mp hv⟩
  · rintro ⟨path, hpath⟩
    exact ⟨⟨id, path⟩, (ht.mem_allVisits_iff _).mpr hpath, rfl⟩

/-- Two visits of one node have the same path. -/
theorem visit_unique {v w : Visit} (hv : t.RootPath v.node v.path) (hw : t.RootPath w.node w.path)
    (h : v.node = w.node) : v = w := by
  obtain ⟨id, path⟩ := v
  obtain ⟨id', path'⟩ := w
  obtain rfl : id = id' := h
  obtain rfl : path = path' := ht.rootPath_unique hv hw
  rfl

theorem visitsBelow_nodup (keep : NodeId → Bool) (fuel : Nat) (path : List NodeId) (id : NodeId)
    (hpath : t.RootPath id path) : (t.visitsBelow keep fuel path id).Nodup := by
  induction fuel generalizing path id with
  | zero => simp [visitsBelow_zero]
  | succ fuel ih =>
    rw [visitsBelow_succ]
    split
    · rw [List.nodup_cons, List.nodup_flatMap]
      refine ⟨?_, fun child hc => ih (id :: path) child (hpath.child hc), ?_⟩
      · intro hmem
        obtain ⟨child, _, hv⟩ := List.mem_flatMap.mp hmem
        have hlen := (t.suffix_of_mem_visitsBelow keep fuel (id :: path) child _ hv).length_le
        simp only [List.length_cons] at hlen
        omega
      · exact (ht.nodup_children id).imp fun hne => t.visitsBelow_disjoint keep fuel (id :: path) hne
    · exact List.nodup_nil

theorem nodes_visits_nodup (keep : NodeId → Bool) : ((t.visits keep).map (·.node)).Nodup := by
  have hnodup := ht.visitsBelow_nodup keep t.size [] t.root .root
  apply List.Nodup.map_on _ hnodup
  intro v hv w hw h
  exact ht.visit_unique ((ht.mem_visits_iff keep v).mp hv).1 ((ht.mem_visits_iff keep w).mp hw).1 h

theorem length_visits_le (keep : NodeId → Bool) : (t.visits keep).length ≤ t.size := by
  have h := t.length_le_size _ (ht.nodes_visits_nodup keep) (by
    intro id hid
    obtain ⟨v, hv, rfl⟩ := List.mem_map.mp hid
    exact ht.rootPath_lt ((ht.mem_visits_iff keep v).mp hv).1)
  simpa using h

theorem bestBelow_eq (fuel fuel' : Nat) (depth : Int) (path : List NodeId) (id : NodeId)
    (hpath : t.RootPath id path)
    (h : t.size ≤ fuel + path.length) (h' : t.size ≤ fuel' + path.length) :
    t.bestBelow fuel depth id = t.bestBelow fuel' depth id := by
  have hlen := ht.rootPath_length_lt hpath
  induction fuel generalizing fuel' depth path id with
  | zero => omega
  | succ fuel ih =>
    cases fuel' with
    | zero => omega
    | succ fuel' =>
      rw [bestBelow, bestBelow]
      apply List.foldl_ext
      intro best child hc
      have hchild := hpath.child hc
      rw [ih fuel' (depth + 1) (id :: path) child hchild (by simp; omega) (by simp; omega)
        (ht.rootPath_length_lt hchild)]

end WellFormed

end UnitFacts.Tree
