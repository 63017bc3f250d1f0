import UnitFacts.Proofs.Tree.Walk

/-!
The verdict of the check. It accepts a tree if and only if everything is in its place, which `Tree.InPlace` says
node by node, and from every node the semantic parents lead to one that has none. The counter of steps is exact: of
a tree with all else in its place the check names the first node whose semantic parents lead into a cycle, whether or
not the node lies on it, and it names none if there is no cycle, however long the chains are.
-/

namespace UnitFacts.Tree

/-- Where a number of steps lead, each from a node to its semantic parent. -/
def scopeAfter (t : Tree) : Nat → NodeId → Option NodeId
  | 0, id => some id
  | steps + 1, id => (t.semanticParent? id).bind (t.scopeAfter steps)

/-- Going from a node to its semantic parent again and again leads to a node that has none. -/
def ChainEnds (t : Tree) (id : NodeId) : Prop :=
  ∃ steps top, t.scopeAfter steps id = some top ∧ t.semanticParent? top = none

/-- One node links to another. -/
def LinksTo (t : Tree) (id target : NodeId) : Prop :=
  t.lexicalParent? id = some target ∨ t.semanticParent? id = some target ∨ t.referenced? id = some target ∨
    t.canonical? id = some target ∨ t.definition? id = some target

/-- Links, children and files are in range, no node is a child twice, and the root is no child. -/
structure InPlace (t : Tree) : Prop where
  root_lt : t.root < t.size
  link_lt : ∀ id target, t.LinksTo id target → target < t.size
  file_lt : ∀ id n position, t.node? id = some n → n.position = some position → position.file < t.files.length
  child_lt : ∀ parent, ∀ child ∈ t.children parent, child < t.size
  children_nodup : ∀ parent, (t.children parent).Nodup
  parent_unique : ∀ p q child, child ∈ t.children p → child ∈ t.children q → p = q
  root_not_child : ∀ parent, t.root ∉ t.children parent

/-- The check accepts a tree if everything is in its place and all chains end, and it finds a cycle if all else is in
its place, naming the first node whose chain does not end, because it leads into a cycle. -/
structure CheckExact (t : Tree) : Prop where
  accepted_iff : t.check = .ok () ↔ t.InPlace ∧ ∀ id < t.size, t.ChainEnds id
  cycle_iff : ∀ id, t.check = .error (.scopeCycle id) ↔
    t.InPlace ∧ id < t.size ∧ ¬ t.ChainEnds id ∧ ∀ k < id, t.ChainEnds k
  endless_iff : t.InPlace → ∀ id < t.size,
    (¬ t.ChainEnds id ↔ ∃ k, t.IsAround k id ∧ Relation.TransGen t.Encloses k k)

variable {t : Tree}

/-! ### Everything in its place -/

theorem linksTo_iff (id target : NodeId) :
    t.LinksTo id target ↔ ∃ n, t.node? id = some n ∧ target ∈ n.links := by
  simp only [LinksTo, lexicalParent?, semanticParent?, referenced?, canonical?, definition?, mem_links_iff]
  cases t.node? id <;> simp

/-- Before any chain is followed, the check has found everything in its place. -/
theorem inPlace_iff (t : Tree) : t.InPlace ↔
    t.root < t.size ∧ t.checkNodes 0 t.nodes.toList (Array.replicate t.size false) = .ok () := by
  rw [checkNodes_eq_ok_iff t 0 _ _ (by simp), fresh_replicate_iff]
  change _ ↔
    _ ∧ _ ∧ _ ∧ (∀ child ∈ t.allChildren, child < t.size) ∧ t.root ∉ t.allChildren ∧ t.allChildren.Nodup
  simp only [mem_nodes_iff, nodup_allChildren_iff, mem_allChildren_iff]
  constructor
  · intro h
    refine ⟨h.root_lt, ?_, ?_, ?_, ?_, h.children_nodup, h.parent_unique⟩
    · rintro n ⟨id, hn⟩ target htarget
      exact h.link_lt id target ((linksTo_iff id target).mpr ⟨n, hn, htarget⟩)
    · rintro n ⟨id, hn⟩ position hposition
      exact h.file_lt id n position hn hposition
    · rintro child ⟨parent, hchild⟩
      exact h.child_lt parent child hchild
    · rintro ⟨parent, hchild⟩
      exact h.root_not_child parent hchild
  · rintro ⟨hroot, hlinks, hfiles, hchild, hnot, hnodup, hunique⟩
    refine ⟨hroot, ?_, ?_, fun parent child h => hchild child ⟨parent, h⟩, hnodup, hunique,
      fun parent h => hnot ⟨parent, h⟩⟩
    · intro id target htarget
      obtain ⟨n, hn, hmem⟩ := (linksTo_iff id target).mp htarget
      exact hlinks n ⟨id, hn⟩ target hmem
    · intro id n position hn hposition
      exact hfiles n ⟨id, hn⟩ position hposition

theorem InPlace.encloses_lt (h : t.InPlace) (outer inner : NodeId) (hparent : t.Encloses outer inner) :
    outer < t.size :=
  h.link_lt inner outer (Or.inr (Or.inl hparent))

/-! ### Chains -/

theorem chainEnds_iff_acc (id : NodeId) : t.ChainEnds id ↔ Acc t.Encloses id := by
  constructor
  · rintro ⟨steps, top, hsteps, htop⟩
    induction steps generalizing id with
    | zero =>
      obtain rfl : id = top := Option.some.inj hsteps
      exact ⟨id, fun p hp => absurd (htop.symm.trans hp) (by simp)⟩
    | succ steps ih =>
      obtain ⟨p, hp, hrest⟩ := Option.bind_eq_some_iff.mp hsteps
      refine ⟨id, fun q hq => ?_⟩
      obtain rfl : p = q := Option.some.inj (hp.symm.trans hq)
      exact ih p hrest
  · intro hacc
    induction hacc with
    | intro id _ ih =>
      cases hp : t.semanticParent? id with
      | none => exact ⟨0, id, rfl, hp⟩
      | some p =>
        obtain ⟨steps, top, hsteps, htop⟩ := ih p hp
        exact ⟨steps + 1, top, by rw [scopeAfter, hp, Option.bind_some, hsteps], htop⟩

theorem chainEnds_iff_of_parent {id p : NodeId} (hp : t.semanticParent? id = some p) :
    t.ChainEnds id ↔ t.ChainEnds p := by
  rw [chainEnds_iff_acc, chainEnds_iff_acc]
  refine ⟨fun h => h.inv hp, fun h => ⟨id, fun q hq => ?_⟩⟩
  obtain rfl : p = q := Option.some.inj (hp.symm.trans hq)
  exact h

/-- A chain that ends leads into no cycle. -/
theorem ChainEnds.not_transGen_self {id k : NodeId} (h : t.ChainEnds id) (hk : t.IsAround k id) :
    ¬ Relation.TransGen t.Encloses k k := by
  have hacc : Acc t.Encloses k := by
    induction hk using Relation.ReflTransGen.head_induction_on with
    | refl => exact (chainEnds_iff_acc id).mp h
    | head hstep _ ih => exact ih.inv hstep
  have hself : ∀ k, Acc (Relation.TransGen t.Encloses) k → ¬ Relation.TransGen t.Encloses k k := by
    intro k hk
    induction hk with
    | intro k _ ih => exact fun hcycle => ih k hcycle hcycle
  exact hself k hacc.transGen

/-- As many steps as the table has nodes are enough for every chain that ends, and for no other. -/
theorem InPlace.length_ancestry_le_iff (h : t.InPlace) {id : NodeId} (hid : id < t.size) :
    (t.ancestry (t.size + 1) (some id)).length ≤ t.size ↔ t.ChainEnds id := by
  constructor
  · intro hlength
    exact (chainEnds_iff_acc id).mpr (t.acc_of_ancestry_lt _ id (Nat.lt_succ_of_le hlength))
  · exact fun hends => ancestry_length_le_of_acyclic h.encloses_lt _ (fun k hk => hends.not_transGen_self hk) hid

/-- The steps that the check counts from a node. -/
theorem InPlace.length_node_le_iff (h : t.InPlace) {id : NodeId} {n : Node} (hn : t.node? id = some n) :
    (t.ancestry (t.size + 1) n.semanticParent).length ≤ t.size ↔ t.ChainEnds id := by
  have hp : t.semanticParent? id = n.semanticParent := by rw [semanticParent?, hn, Option.bind_some]
  cases hparent : n.semanticParent with
  | none => simpa using ⟨0, id, rfl, hp.trans hparent⟩
  | some p =>
    rw [hparent] at hp
    rw [h.length_ancestry_le_iff (h.encloses_lt p id hp), chainEnds_iff_of_parent hp]

/-- A chain that does not end leads into a cycle. -/
theorem InPlace.not_chainEnds_iff (h : t.InPlace) {id : NodeId} (hid : id < t.size) :
    ¬ t.ChainEnds id ↔ ∃ k, t.IsAround k id ∧ Relation.TransGen t.Encloses k k := by
  constructor
  · intro hendless
    by_contra hno
    refine hendless ((h.length_ancestry_le_iff hid).mp ?_)
    exact ancestry_length_le_of_acyclic h.encloses_lt _ (fun k hk hcycle => hno ⟨k, hk, hcycle⟩) hid
  · rintro ⟨k, hk, hcycle⟩ hends
    exact hends.not_transGen_self hk hcycle

/-! ### The stages of the check -/

theorem checkScopes_eq_error_iff (start : NodeId) (nodes : List Node) (fault : Fault) :
    t.checkScopes start nodes = .error fault ↔ ∃ k n, nodes[k]? = some n ∧ fault = .scopeCycle (start + k) ∧
      t.size < (t.ancestry (t.size + 1) n.semanticParent).length ∧
      ∀ j < k, ∀ m, nodes[j]? = some m → (t.ancestry (t.size + 1) m.semanticParent).length ≤ t.size := by
  induction nodes generalizing start with
  | nil => simp [checkScopes]
  | cons n rest ih =>
    rw [checkScopes]
    by_cases hlong : t.size < (t.ancestry (t.size + 1) n.semanticParent).length
    · rw [if_pos hlong, Except.error.injEq]
      constructor
      · exact fun h => ⟨0, n, rfl, h.symm, hlong, by simp⟩
      · rintro ⟨k, m, hm, rfl, -, hbefore⟩
        cases k with
        | zero => rfl
        | succ k => exact absurd (hbefore 0 (Nat.succ_pos k) n rfl) (Nat.not_le.mpr hlong)
    · rw [if_neg hlong, ih]
      constructor
      · rintro ⟨k, m, hm, rfl, hk, hbefore⟩
        refine ⟨k + 1, m, hm, by rw [Nat.add_right_comm, Nat.add_assoc], hk, fun j hj other hother => ?_⟩
        cases j with
        | zero =>
          obtain rfl : n = other := Option.some.inj hother
          exact Nat.le_of_not_lt hlong
        | succ j => exact hbefore j (Nat.lt_of_succ_lt_succ hj) other hother
      · rintro ⟨k, m, hm, rfl, hk, hbefore⟩
        cases k with
        | zero =>
          obtain rfl : n = m := Option.some.inj hm
          exact absurd hk hlong
        | succ k =>
          exact ⟨k, m, hm, by rw [Nat.add_right_comm, Nat.add_assoc], hk,
            fun j hj other hother => hbefore (j + 1) (Nat.succ_lt_succ hj) other hother⟩

theorem checkChildren_ne_scopeCycle (id : NodeId) (children : List NodeId) (marks : Array Bool) (k : NodeId) :
    t.checkChildren id children marks ≠ .error (.scopeCycle k) := by
  induction children generalizing marks with
  | nil => simp [checkChildren]
  | cons child rest ih =>
    rw [checkChildren]
    split
    · simp
    · split
      · simp
      · exact ih _

/-- Only chains are faulted for a cycle. -/
theorem checkNodes_ne_scopeCycle (id : NodeId) (nodes : List Node) (marks : Array Bool) (k : NodeId) :
    t.checkNodes id nodes marks ≠ .error (.scopeCycle k) := by
  induction nodes generalizing id marks with
  | nil => simp [checkNodes]
  | cons n rest ih =>
    intro h
    have hlinks : t.checkLinks id n ≠ .error (.scopeCycle k) := by unfold checkLinks; split <;> simp
    have hfile : t.checkFile id n ≠ .error (.scopeCycle k) := by
      unfold checkFile
      split
      · split <;> simp
      · simp
    have hchildren := t.checkChildren_ne_scopeCycle id n.children marks k
    rw [checkNodes] at h
    cases hl : t.checkLinks id n with
    | error fault => simp_all [bind, Except.bind]
    | ok _ =>
      cases hf : t.checkFile id n with
      | error fault => simp_all [bind, Except.bind]
      | ok _ =>
        cases hc : t.checkChildren id n.children marks with
        | error fault => simp_all [bind, Except.bind]
        | ok marks' =>
          rw [hl, hf, hc] at h
          exact ih (id + 1) marks' h

theorem InPlace.check_eq (h : t.InPlace) : t.check = t.checkScopes 0 t.nodes.toList := by
  obtain ⟨hroot, hnodes⟩ := t.inPlace_iff.mp h
  simp [check, hnodes, Nat.not_le.mpr hroot, bind, Except.bind]

/-- Chains are followed only where everything is in its place. -/
theorem inPlace_of_check (h : t.check = .ok () ∨ ∃ id, t.check = .error (.scopeCycle id)) : t.InPlace := by
  rw [inPlace_iff]
  by_cases hroot : t.size ≤ t.root
  · simp [check, hroot, bind, Except.bind, throw, throwThe, MonadExceptOf.throw] at h
  · refine ⟨Nat.lt_of_not_le hroot, ?_⟩
    cases hstage : t.checkNodes 0 t.nodes.toList (Array.replicate t.size false) with
    | ok _ => rfl
    | error fault =>
      have hcheck : t.check = .error fault := by simp [check, hroot, hstage, bind, Except.bind]
      rcases h with hok | ⟨id, hcycle⟩
      · cases hcheck.symm.trans hok
      · cases hcheck.symm.trans hcycle
        exact absurd hstage (checkNodes_ne_scopeCycle _ _ _ _)

/-- Of a tree with all else in its place the check accepts the chains if all of them end. -/
theorem InPlace.checkScopes_eq_ok_iff (h : t.InPlace) :
    t.checkScopes 0 t.nodes.toList = .ok () ↔ ∀ id < t.size, t.ChainEnds id := by
  rw [Tree.checkScopes_eq_ok_iff]
  simp only [mem_nodes_iff]
  constructor
  · intro hshort id hid
    obtain ⟨n, hn⟩ := exists_node? hid
    exact (h.length_node_le_iff hn).mp (hshort n ⟨id, hn⟩)
  · rintro hends n ⟨id, hn⟩
    exact (h.length_node_le_iff hn).mpr (hends id (lt_size_of_node? hn))

/-- Of a tree with all else in its place the check names the first node whose chain does not end. -/
theorem InPlace.checkScopes_eq_scopeCycle_iff (h : t.InPlace) (id : NodeId) :
    t.checkScopes 0 t.nodes.toList = .error (.scopeCycle id) ↔
      id < t.size ∧ ¬ t.ChainEnds id ∧ ∀ k < id, t.ChainEnds k := by
  have hnode : ∀ k, t.nodes.toList[k]? = t.node? k := by simp [node?]
  simp only [checkScopes_eq_error_iff, Fault.scopeCycle.injEq, Nat.zero_add, hnode]
  constructor
  · rintro ⟨k, n, hn, rfl, hlong, hbefore⟩
    refine ⟨lt_size_of_node? hn, ?_, fun k hk => ?_⟩
    · rw [← h.length_node_le_iff hn]
      exact Nat.not_le.mpr hlong
    · obtain ⟨m, hm⟩ := exists_node? (Nat.lt_trans hk (lt_size_of_node? hn))
      exact (h.length_node_le_iff hm).mp (hbefore k hk m hm)
  · rintro ⟨hid, hendless, hends⟩
    obtain ⟨n, hn⟩ := exists_node? hid
    refine ⟨id, n, hn, rfl, ?_, fun k hk m hm => (h.length_node_le_iff hm).mpr (hends k hk)⟩
    rw [← h.length_node_le_iff hn] at hendless
    exact Nat.lt_of_not_le hendless

/-- The check of every tree is exact. -/
theorem checkExact (t : Tree) : t.CheckExact where
  accepted_iff := by
    constructor
    · intro hcheck
      have h := inPlace_of_check (Or.inl hcheck)
      exact ⟨h, h.checkScopes_eq_ok_iff.mp (h.check_eq ▸ hcheck)⟩
    · rintro ⟨h, hends⟩
      exact h.check_eq ▸ h.checkScopes_eq_ok_iff.mpr hends
  cycle_iff id := by
    constructor
    · intro hcheck
      have h := inPlace_of_check (Or.inr ⟨id, hcheck⟩)
      exact ⟨h, (h.checkScopes_eq_scopeCycle_iff id).mp (h.check_eq ▸ hcheck)⟩
    · rintro ⟨h, hends⟩
      exact h.check_eq ▸ (h.checkScopes_eq_scopeCycle_iff id).mpr hends
  endless_iff h id hid := h.not_chainEnds_iff hid

/-- A chain through all nodes is accepted, and a chain that leads into a cycle it does not start on is not. -/
example :
    Tree.check ⟨[], 0, #[{ kind := .unit, semanticParent := some 1 }, { kind := .unit, semanticParent := some 2 },
      { kind := .unit }], [], []⟩ = .ok () ∧
    Tree.check ⟨[], 0, #[{ kind := .unit, semanticParent := some 1 }, { kind := .unit, semanticParent := some 2 },
      { kind := .unit, semanticParent := some 1 }], [], []⟩ = .error (.scopeCycle 0) := by
  decide

end UnitFacts.Tree
