import UnitFacts.Proofs.Tree.Walk

/-!
Pre-order and subtrees. `Tree.Preorder` says in which order a walk visits without a bound on its depth: a
node, then all below it, then what stands beside it. The walk over every node of a well-formed tree is in
that order, and a walk that passes over some nodes leaves out what lies at or below them and nothing else.
The children of a node have disjoint subtrees.
-/

namespace UnitFacts.Tree

/-- `visits` are the nodes at and below `siblings` in pre-order; `path` is the path of the siblings. -/
inductive Preorder (t : Tree) : List NodeId → List NodeId → List Visit → Prop
  | nil {path : List NodeId} : Preorder t path [] []
  | cons {path rest : List NodeId} {id : NodeId} {below beside : List Visit} :
      Preorder t (id :: path) (t.children id) below → Preorder t path rest beside →
        Preorder t path (id :: rest) (⟨id, path⟩ :: (below ++ beside))

/-- `id` is `top` or in the subtree below it. -/
def Below (t : Tree) (top id : NodeId) : Prop :=
  Relation.ReflTransGen (fun parent child => child ∈ t.children parent) top id

variable {t : Tree}

/-- The orders of single siblings, one after the other. -/
theorem Preorder.flatMap {path siblings : List NodeId} {visits : NodeId → List Visit}
    (h : ∀ id ∈ siblings, t.Preorder path [id] (visits id)) :
    t.Preorder path siblings (siblings.flatMap visits) := by
  induction siblings with
  | nil => exact .nil
  | cons id rest ih =>
    have hrest := ih fun later hlater => h later (List.mem_cons_of_mem id hlater)
    have hfirst := h id List.mem_cons_self
    rw [List.flatMap_cons]
    generalize visits id = visited at hfirst
    obtain _ | ⟨hbelow, hnone⟩ := hfirst
    cases hnone
    rw [List.append_nil, List.cons_append]
    exact .cons hbelow hrest

/-- What stands at or below a node is the node itself or stands at or below one of its children. -/
theorem below_iff (top id : NodeId) :
    t.Below top id ↔ top = id ∨ ∃ child ∈ t.children top, t.Below child id :=
  Relation.ReflTransGen.cases_head_iff

/-- A pre-order goes to all that stands at or below the siblings and to nothing else. -/
theorem Preorder.mem_nodes_iff {path siblings : List NodeId} {visits : List Visit}
    (h : t.Preorder path siblings visits) (id : NodeId) :
    id ∈ visits.map (·.node) ↔ ∃ top ∈ siblings, t.Below top id := by
  induction h with
  | nil => simp
  | @cons path rest top below beside _ _ ihBelow ihBeside =>
    have hbelow : t.Below top id ↔ id = top ∨ id ∈ below.map (·.node) := by
      rw [below_iff, ihBelow, eq_comm]
    rw [List.map_cons, List.map_append, List.mem_cons, List.mem_append, List.exists_mem_cons_iff, hbelow,
      ihBeside, or_assoc]

/-- Passing over nodes leaves out the visits with such a node on the way. -/
theorem visitsBelow_eq_filter (keep : NodeId → Bool) (fuel : Nat) (path : List NodeId) (id : NodeId)
    (hpath : path.all keep = true) :
    t.visitsBelow keep fuel path id =
      (t.visitsBelow (fun _ => true) fuel path id).filter fun v => (v.node :: v.path).all keep := by
  induction fuel generalizing path id with
  | zero => simp only [visitsBelow_zero, List.filter_nil]
  | succ fuel ih =>
    by_cases hid : keep id
    · have hall : (id :: path).all keep = true := by simp [hid, hpath]
      have hbelow : ∀ child ∈ t.children id, t.visitsBelow keep fuel (id :: path) child =
          (t.visitsBelow (fun _ => true) fuel (id :: path) child).filter
            fun v => (v.node :: v.path).all keep := fun child _ => ih (id :: path) child hall
      rw [visitsBelow_succ, visitsBelow_succ, if_pos hid, if_pos rfl, List.filter_cons, if_pos hall,
        List.filter_flatMap, List.flatMap_congr hbelow]
    · rw [visitsBelow_succ, if_neg hid, eq_comm, List.filter_eq_nil_iff]
      intro v hv hall
      have hmem : id ∈ v.node :: v.path :=
        (t.suffix_of_mem_visitsBelow _ (fuel + 1) path id v hv).subset List.mem_cons_self
      exact hid (List.all_eq_true.mp hall id hmem)

theorem visits_eq_filter (t : Tree) (keep : NodeId → Bool) :
    t.visits keep = t.allVisits.filter fun v => (v.node :: v.path).all keep :=
  visitsBelow_eq_filter keep t.size [] t.root rfl

theorem RootPath.extend {top id : NodeId} {path : List NodeId} (h : t.RootPath top path)
    (hbelow : t.Below top id) : ∃ longer, t.RootPath id longer ∧ path.length ≤ longer.length := by
  induction hbelow with
  | refl => exact ⟨path, h, Nat.le_refl _⟩
  | @tail parent child _ hchild ih =>
    obtain ⟨longer, hlonger, hlen⟩ := ih
    exact ⟨parent :: longer, hlonger.child hchild, Nat.le_succ_of_le hlen⟩

namespace WellFormed

variable (ht : t.WellFormed)
include ht

theorem preorder_visitsBelow (fuel : Nat) (path : List NodeId) (id : NodeId) (hpath : t.RootPath id path)
    (h : t.size ≤ fuel + path.length) :
    t.Preorder path [id] (t.visitsBelow (fun _ => true) fuel path id) := by
  have hlen := ht.rootPath_length_lt hpath
  induction fuel generalizing path id with
  | zero => omega
  | succ fuel ih =>
    have hbelow : t.Preorder (id :: path) (t.children id)
        ((t.children id).flatMap fun child => t.visitsBelow (fun _ => true) fuel (id :: path) child) := by
      apply Preorder.flatMap
      intro child hchild
      have hchildPath := hpath.child hchild
      exact ih (id :: path) child hchildPath (by simp only [List.length_cons]; omega)
        (ht.rootPath_length_lt hchildPath)
    have hnone : t.Preorder path [] [] := .nil
    rw [visitsBelow_succ, if_pos rfl]
    simpa only [List.append_nil] using hbelow.cons hnone

theorem preorder_allVisits : t.Preorder [] [t.root] t.allVisits :=
  ht.preorder_visitsBelow t.size [] t.root .root (Nat.le_refl _)

/-- No subtree below a node that the root reaches contains that node. -/
theorem not_below_of_child {parent child : NodeId} {path : List NodeId} (h : t.RootPath parent path)
    (hchild : child ∈ t.children parent) : ¬ t.Below child parent := by
  intro hbelow
  obtain ⟨longer, hlonger, hlen⟩ := (h.child hchild).extend hbelow
  rw [ht.rootPath_unique hlonger h] at hlen
  exact Nat.not_succ_le_self _ hlen

/-- A child of a node has another child below it only if it is that child. -/
theorem child_eq_of_below {parent a b : NodeId} {path : List NodeId} (h : t.RootPath parent path)
    (ha : a ∈ t.children parent) (hb : b ∈ t.children parent) (hbelow : t.Below a b) : a = b := by
  rcases Relation.ReflTransGen.cases_tail hbelow with heq | ⟨last, hlast, hstep⟩
  · exact heq.symm
  · rw [ht.parent_unique hstep hb] at hlast
    exact absurd hlast (ht.not_below_of_child h ha)

/-- The subtrees of the children of a node are disjoint. -/
theorem child_unique {parent a b id : NodeId} {path : List NodeId} (h : t.RootPath parent path)
    (ha : a ∈ t.children parent) (hb : b ∈ t.children parent) (hida : t.Below a id) (hidb : t.Below b id) :
    a = b := by
  -- the nodes above a node form a chain, since each has one parent
  have hup : Relator.RightUnique (Function.swap fun parent child => child ∈ t.children parent) :=
    fun _ _ _ hp hq => ht.parent_unique hp hq
  rcases Relation.ReflTransGen.total_of_right_unique hup hida.swap hidb.swap with hba | hab
  · exact (ht.child_eq_of_below h hb ha hba.swap).symm
  · exact ht.child_eq_of_below h ha hb hab.swap

end WellFormed

end UnitFacts.Tree
