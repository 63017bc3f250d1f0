import Mathlib.Data.List.Perm.Subperm
import Mathlib.Logic.Relation
import Mathlib.Order.WellFounded
import UnitFacts.Proofs.Tree.Table
import UnitFacts.Tree.Scope

/-!
Chains of semantic parents. A tree is scoped if semantic parents stand in the table and every chain
of them ends. Then no chain is longer than the table, so a chain that is cut at the size of the
table is whole. A scoped tree stays scoped when one semantic parent is redirected to a node that the
redirected one is not around.
-/

namespace UnitFacts.Tree

/-- `outer` is the semantic parent of `inner`. -/
def Encloses (t : Tree) (outer inner : NodeId) : Prop := t.semanticParent? inner = some outer

/-- `outer` is `inner` or stands on its chain of semantic parents. -/
def IsAround (t : Tree) (outer inner : NodeId) :
    Prop := Relation.ReflTransGen t.Encloses outer inner

structure Scoped (t : Tree) : Prop where
  lt : ∀ outer inner, t.Encloses outer inner → outer < t.size
  ends : WellFounded t.Encloses

@[simp] theorem ancestry_zero (t : Tree) (id? : Option NodeId) : t.ancestry 0 id? = [] := by
  rw [ancestry]

@[simp] theorem ancestry_none (t : Tree) (fuel : Nat) : t.ancestry fuel none = [] := by
  cases fuel <;> rw [ancestry]

theorem ancestry_succ (t : Tree) (fuel : Nat) (id : NodeId) :
    t.ancestry (fuel + 1) (some id) = id :: t.ancestry fuel (t.semanticParent? id) := by
  rw [ancestry]

theorem isAround_of_mem_ancestry (t : Tree) (fuel : Nat) (id k : NodeId)
    (h : k ∈ t.ancestry fuel (some id)) : t.IsAround k id := by
  induction fuel generalizing id with
  | zero => simp at h
  | succ fuel ih =>
    rw [ancestry_succ] at h
    rcases List.mem_cons.mp h with rfl | htail
    · exact Relation.ReflTransGen.refl
    · cases hp : t.semanticParent? id with
      | none => simp [hp] at htail
      | some p =>
        rw [hp] at htail
        exact (ih p htail).tail hp

/-- A chain that is shorter than its bound has come to an end. -/
theorem acc_of_ancestry_lt (t : Tree) (fuel : Nat) (id : NodeId)
    (h : (t.ancestry fuel (some id)).length < fuel) : Acc t.Encloses id := by
  induction fuel generalizing id with
  | zero => simp at h
  | succ fuel ih =>
    rw [ancestry_succ, List.length_cons] at h
    constructor
    intro p hp
    rw [Encloses] at hp
    rw [hp] at h
    exact ih p (by omega)

theorem mem_ancestry_of_isAround (t : Tree) (fuel : Nat) (id k : NodeId) (hk : t.IsAround k id)
    (h : (t.ancestry fuel (some id)).length < fuel) : k ∈ t.ancestry fuel (some id) := by
  induction hk generalizing fuel with
  | refl =>
    cases fuel with
    | zero => simp at h
    | succ fuel => simp [ancestry_succ]
  | @tail p id _ hp ih =>
    rw [Encloses] at hp
    cases fuel with
    | zero => simp at h
    | succ fuel =>
      rw [ancestry_succ, hp] at h ⊢
      rw [List.length_cons] at h
      exact List.mem_cons_of_mem _ (ih fuel (by omega))

theorem ancestry_eq_take (t : Tree) (fuel more : Nat) (id? : Option NodeId) :
    t.ancestry fuel id? = (t.ancestry (fuel + more) id?).take fuel := by
  induction fuel generalizing id? with
  | zero => simp
  | succ fuel ih =>
    cases id? with
    | none => simp
    | some id =>
      rw [Nat.add_right_comm, ancestry_succ, ancestry_succ, List.take_succ_cons, ← ih]

/-- A list of table indices without repetitions is no longer than the table. -/
theorem length_le_size (t : Tree) (ids : List NodeId) (hn : ids.Nodup)
    (hlt : ∀ id ∈ ids, id < t.size) :
    ids.length ≤ t.size := by
  have hsub : ids ⊆ List.range t.size := fun id hid => List.mem_range.mpr (hlt id hid)
  simpa using (List.subperm_of_subset hn hsub).length_le

section Chain

variable {t : Tree}

theorem lt_size_of_isAround (hlt : ∀ outer inner, t.Encloses outer inner → outer < t.size) {outer inner : NodeId}
    (h : t.IsAround outer inner) (hinner : inner < t.size) : outer < t.size := by
  induction h using Relation.ReflTransGen.head_induction_on with
  | refl => exact hinner
  | head hstep _ _ => exact hlt _ _ hstep

/-- A chain that does not lead into a cycle repeats no node. -/
theorem ancestry_nodup_of_acyclic (fuel : Nat) {id : NodeId}
    (hid : ∀ k, t.IsAround k id → ¬ Relation.TransGen t.Encloses k k) : (t.ancestry fuel (some id)).Nodup := by
  induction fuel generalizing id with
  | zero => simp
  | succ fuel ih =>
    rw [ancestry_succ, List.nodup_cons]
    cases hp : t.semanticParent? id with
    | none => simp
    | some p =>
      refine ⟨fun hmem => ?_, ih fun k hk => hid k (hk.tail hp)⟩
      have haround := t.isAround_of_mem_ancestry fuel p id hmem
      exact hid id Relation.ReflTransGen.refl (Relation.TransGen.tail' haround hp)

theorem ancestry_length_le_of_acyclic (hlt : ∀ outer inner, t.Encloses outer inner → outer < t.size) (fuel : Nat)
    {id : NodeId} (hid : ∀ k, t.IsAround k id → ¬ Relation.TransGen t.Encloses k k) (hsize : id < t.size) :
    (t.ancestry fuel (some id)).length ≤ t.size := by
  apply t.length_le_size _ (ancestry_nodup_of_acyclic fuel hid)
  intro k hk
  exact lt_size_of_isAround hlt (t.isAround_of_mem_ancestry fuel id k hk) hsize

end Chain

namespace Scoped

variable {t : Tree} (ht : t.Scoped)
include ht

theorem not_transGen_self (id : NodeId) : ¬ Relation.TransGen t.Encloses id id :=
  ht.ends.transGen.irrefl.irrefl id

theorem lt_size_of_isAround {outer inner : NodeId} (h : t.IsAround outer inner)
    (hlt : inner < t.size) : outer < t.size :=
  Tree.lt_size_of_isAround ht.lt h hlt

theorem ancestry_length_le (fuel : Nat) {id : NodeId} (hlt : id < t.size) :
    (t.ancestry fuel (some id)).length ≤ t.size :=
  ancestry_length_le_of_acyclic ht.lt fuel (fun k _ => ht.not_transGen_self k) hlt

/-- Any bound from the size of the table on gives the whole chain. -/
theorem ancestry_eq_scopeChain {fuel : Nat} (hfuel : t.size ≤ fuel) {id : NodeId}
    (hlt : id < t.size) :
    t.ancestry fuel (some id) = t.scopeChain id := by
  obtain ⟨more, rfl⟩ := Nat.exists_eq_add_of_le hfuel
  rw [scopeChain, t.ancestry_eq_take t.size more, List.take_of_length_le]
  exact ht.ancestry_length_le _ hlt

theorem mem_scopeChain_iff {id k : NodeId} (hlt : id < t.size) :
    k ∈ t.scopeChain id ↔ t.IsAround k id := by
  rw [← ht.ancestry_eq_scopeChain (Nat.le_succ _) hlt]
  constructor
  · exact t.isAround_of_mem_ancestry _ id k
  · intro h
    apply t.mem_ancestry_of_isAround _ id k h
    exact Nat.lt_succ_of_le (ht.ancestry_length_le _ hlt)

/-- Redirecting the semantic parent of `id` closes no cycle unless `id` is around its new parent. -/
theorem redirect {t' : Tree} (id : NodeId) (hsize : t.size ≤ t'.size)
    (hsame : ∀ k, k ≠ id → t'.semanticParent? k = t.semanticParent? k)
    (hnew : ∀ s, t'.semanticParent? id = some s → s < t'.size ∧ ¬ t.IsAround id s) : t'.Scoped := by
  have houtside : ∀ k, ¬ t.IsAround id k → Acc t'.Encloses k := by
    intro k
    induction k using ht.ends.induction with
    | _ k ih =>
      intro hk
      have hne : k ≠ id := fun h => hk (h ▸ Relation.ReflTransGen.refl)
      constructor
      intro p hp
      have hold : t.Encloses p k := by rwa [Encloses, hsame k hne] at hp
      exact ih p hold fun haround => hk (haround.tail hold)
  have hall : ∀ k, Acc t'.Encloses k := by
    intro k
    induction k using ht.ends.induction with
    | _ k ih =>
      constructor
      intro p hp
      by_cases hk : k = id
      · subst hk
        exact houtside p (hnew p hp).2
      · exact ih p (by rwa [Encloses, hsame k hk] at hp)
  refine ⟨?_, ⟨hall⟩⟩
  intro outer inner h
  by_cases hk : inner = id
  · subst hk
    exact (hnew outer h).1
  · rw [Encloses, hsame inner hk] at h
    exact Nat.lt_of_lt_of_le (ht.lt outer inner h) hsize

/-- A tree with the same semantic parents is scoped too. -/
theorem of_eq {t' : Tree} (hsize : t.size ≤ t'.size)
    (hsame : ∀ k, t'.semanticParent? k = t.semanticParent? k) : t'.Scoped := by
  have heq : t'.Encloses = t.Encloses := by
    funext outer inner
    rw [Encloses, Encloses, hsame]
  refine ⟨?_, heq ▸ ht.ends⟩
  intro outer inner h
  exact Nat.lt_of_lt_of_le (ht.lt outer inner (heq ▸ h)) hsize

end Scoped

end UnitFacts.Tree
