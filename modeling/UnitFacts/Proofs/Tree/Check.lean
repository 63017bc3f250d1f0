import UnitFacts.Proofs.Tree.Scope
import UnitFacts.Tree.Check

/-!
What the check of a tree accepts. `Tree.WellFormed` says it without the marks and the step counter
of the check: everything in range, no node a child twice, the root nobody's child, and no cycle of
semantic parents. `check_eq_ok_iff` says that the check accepts exactly these trees.
-/

namespace UnitFacts.Tree

/-- The children lists of all nodes, one after the other. -/
def allChildren (t : Tree) : List NodeId := t.nodes.toList.flatMap (·.children)

structure WellFormed (t : Tree) : Prop where
  root_lt : t.root < t.size
  links_lt : ∀ n ∈ t.nodes.toList, ∀ target ∈ n.links, target < t.size
  files_lt : ∀ n ∈ t.nodes.toList, ∀ position ∈ n.position, position.file < t.files.length
  children_lt : ∀ child ∈ t.allChildren, child < t.size
  children_nodup : t.allChildren.Nodup
  root_not_child : t.root ∉ t.allChildren
  scopes_end : WellFounded t.Encloses

theorem checkLinks_eq_ok_iff (t : Tree) (id : NodeId) (n : Node) :
    t.checkLinks id n = .ok () ↔ ∀ target ∈ n.links, target < t.size := by
  unfold checkLinks
  split
  · rename_i target hfind
    have hbad := List.find?_some hfind
    have hmem := List.mem_of_find?_eq_some hfind
    simp only [reduceCtorEq, false_iff, not_forall]
    exact ⟨target, hmem, by simpa using hbad⟩
  · rename_i hfind
    simpa using List.find?_eq_none.mp hfind

theorem checkFile_eq_ok_iff (t : Tree) (id : NodeId) (n : Node) :
    t.checkFile id n = .ok () ↔ ∀ position ∈ n.position, position.file < t.files.length := by
  unfold checkFile
  cases n.position with
  | none => simp
  | some position =>
    by_cases h : position.file < t.files.length <;> simp [h]

/-- The marks after children have been marked. -/
def markAll (children : List NodeId) (marks : Array Bool) : Array Bool :=
  children.foldl (fun marks child => marks.setIfInBounds child true) marks

/-- Children that may follow the marked ones. -/
def Fresh (t : Tree) (marks : Array Bool) (children : List NodeId) : Prop :=
  (∀ child ∈ children, child < t.size ∧ child ≠ t.root ∧ marks[child]? ≠ some true) ∧ children.Nodup

theorem size_markAll (children : List NodeId) (marks : Array Bool) :
    (markAll children marks).size = marks.size := by
  induction children generalizing marks with
  | nil => rfl
  | cons child rest ih =>
    rw [markAll, List.foldl_cons, ← markAll, ih]
    simp

theorem markAll_eq_true_iff (children : List NodeId) (marks : Array Bool) (k : NodeId)
    (hk : k < marks.size) :
    (markAll children marks)[k]? = some true ↔ marks[k]? = some true ∨ k ∈ children := by
  induction children generalizing marks with
  | nil => simp [markAll]
  | cons child rest ih =>
    rw [markAll, List.foldl_cons, ← markAll, ih _ (by simpa using hk), Array.getElem?_setIfInBounds]
    by_cases h : child = k
    · subst h
      simp [hk]
    · simp [h, Ne.symm h]

theorem fresh_cons_iff (t : Tree) (marks : Array Bool) (hm : marks.size = t.size) (child : NodeId)
    (rest : List NodeId) :
    t.Fresh marks (child :: rest) ↔
      (child < t.size ∧ child ≠ t.root ∧ marks[child]? ≠ some true) ∧
        t.Fresh (marks.setIfInBounds child true) rest := by
  have hmark : ∀ k, k < t.size →
      ((marks.setIfInBounds child true)[k]? = some true ↔ marks[k]? = some true ∨ k = child) := by
    intro k hk
    simpa [markAll] using markAll_eq_true_iff [child] marks k (hm ▸ hk)
  unfold Fresh
  rw [List.forall_mem_cons, List.nodup_cons]
  constructor
  · rintro ⟨⟨hc, hrest⟩, hnot, hnd⟩
    refine ⟨hc, ?_, hnd⟩
    intro k hk
    obtain ⟨hlt, hroot, hold⟩ := hrest k hk
    refine ⟨hlt, hroot, ?_⟩
    rw [Ne, hmark k hlt]
    rintro (h | rfl)
    · exact hold h
    · exact hnot hk
  · rintro ⟨hc, hrest, hnd⟩
    refine ⟨⟨hc, ?_⟩, ?_, hnd⟩
    · intro k hk
      obtain ⟨hlt, hroot, hold⟩ := hrest k hk
      rw [Ne, hmark k hlt] at hold
      exact ⟨hlt, hroot, fun h => hold (Or.inl h)⟩
    · intro hmem
      obtain ⟨hlt, -, hold⟩ := hrest child hmem
      rw [Ne, hmark child hlt] at hold
      exact hold (Or.inr rfl)

theorem fresh_append_iff (t : Tree) (marks : Array Bool) (hm : marks.size = t.size)
    (first second : List NodeId) :
    t.Fresh marks (first ++ second) ↔ t.Fresh marks first ∧ t.Fresh (markAll first marks) second := by
  induction first generalizing marks with
  | nil => simp [Fresh, markAll]
  | cons child rest ih =>
    have hm' : (marks.setIfInBounds child true).size = t.size := by simpa using hm
    rw [List.cons_append, fresh_cons_iff t marks hm, fresh_cons_iff t marks hm, ih _ hm',
      ← and_assoc]
    rfl

theorem checkChildren_eq_ok_iff (t : Tree) (id : NodeId) (children : List NodeId)
    (marks marks' : Array Bool)
    (hm : marks.size = t.size) :
    t.checkChildren id children marks = .ok marks' ↔
      t.Fresh marks children ∧ marks' = markAll children marks := by
  induction children generalizing marks with
  | nil => simp [checkChildren, Fresh, markAll, eq_comm]
  | cons child rest ih =>
    have hm' : (marks.setIfInBounds child true).size = t.size := by simpa using hm
    rw [checkChildren, fresh_cons_iff t marks hm, markAll, List.foldl_cons, ← markAll]
    by_cases hlt : t.size ≤ child
    · have hnot : ¬ child < t.size := Nat.not_lt.mpr hlt
      simp [hlt, hnot]
    · by_cases hbad : child = t.root ∨ marks[child]? = some true
      · simp only [hlt, hbad, if_true, if_false]
        tauto
      · have hlt' : child < t.size := Nat.lt_of_not_le hlt
        rw [not_or] at hbad
        simp [hlt, hlt', hbad, ih _ hm']

theorem checkNodes_eq_ok_iff (t : Tree) (id : NodeId) (nodes : List Node) (marks : Array Bool)
    (hm : marks.size = t.size) :
    t.checkNodes id nodes marks = .ok () ↔
      (∀ n ∈ nodes, ∀ target ∈ n.links, target < t.size) ∧
      (∀ n ∈ nodes, ∀ position ∈ n.position, position.file < t.files.length) ∧
      t.Fresh marks (nodes.flatMap (·.children)) := by
  induction nodes generalizing id marks with
  | nil => simp [checkNodes, Fresh]
  | cons n rest ih =>
    have hstep : t.checkNodes id (n :: rest) marks = .ok () ↔
        t.checkLinks id n = .ok () ∧ t.checkFile id n = .ok () ∧
          ∃ marks', t.checkChildren id n.children marks = .ok marks' ∧
            t.checkNodes (id + 1) rest marks' = .ok () := by
      rw [checkNodes]
      cases t.checkLinks id n <;> cases t.checkFile id n <;> cases t.checkChildren id n.children marks <;>
        simp [bind, Except.bind]
    have hm' : (markAll n.children marks).size = t.size := by rw [size_markAll, hm]
    rw [hstep, checkLinks_eq_ok_iff, checkFile_eq_ok_iff, List.flatMap_cons,
      fresh_append_iff t marks hm,
      List.forall_mem_cons, List.forall_mem_cons]
    simp only [checkChildren_eq_ok_iff t id _ marks _ hm]
    constructor
    · rintro ⟨hlinks, hfile, _, ⟨hfresh, rfl⟩, hrest⟩
      obtain ⟨hlinks', hfiles', hfresh'⟩ := (ih (id + 1) _ hm').mp hrest
      exact ⟨⟨hlinks, hlinks'⟩, ⟨hfile, hfiles'⟩, hfresh, hfresh'⟩
    · rintro ⟨⟨hlinks, hlinks'⟩, ⟨hfile, hfiles'⟩, hfresh, hfresh'⟩
      exact ⟨hlinks, hfile, _, ⟨hfresh, rfl⟩, (ih (id + 1) _ hm').mpr ⟨hlinks', hfiles', hfresh'⟩⟩

theorem checkScopes_eq_ok_iff (t : Tree) (id : NodeId) (nodes : List Node) :
    t.checkScopes id nodes = .ok () ↔
      ∀ n ∈ nodes, (t.ancestry (t.size + 1) n.semanticParent).length ≤ t.size := by
  induction nodes generalizing id with
  | nil => simp [checkScopes]
  | cons n rest ih =>
    rw [checkScopes, List.forall_mem_cons]
    by_cases h : t.size < (t.ancestry (t.size + 1) n.semanticParent).length
    · simp [h]
    · have hle : (t.ancestry (t.size + 1) n.semanticParent).length ≤ t.size := Nat.le_of_not_lt h
      simp [h, hle, ih]

theorem mem_links_iff (n : Node) (target : NodeId) :
    target ∈ n.links ↔ n.lexicalParent = some target ∨ n.semanticParent = some target ∨
      n.referenced = some target ∨ n.canonical = some target ∨ n.definition = some target := by
  simp [Node.links, eq_comm]

theorem semanticParent_mem_links {n : Node} {scope : NodeId} (h : n.semanticParent = some scope) :
    scope ∈ n.links := (mem_links_iff n scope).mpr (Or.inr (Or.inl h))

theorem scoped_of_links (t : Tree)
    (hlinks : ∀ n ∈ t.nodes.toList, ∀ target ∈ n.links, target < t.size)
    (hends : WellFounded t.Encloses) : t.Scoped := by
  refine ⟨?_, hends⟩
  intro outer inner h
  obtain ⟨n, hn, hp⟩ := Option.bind_eq_some_iff.mp h
  exact hlinks n ((t.mem_nodes_iff n).mpr ⟨inner, hn⟩) outer (semanticParent_mem_links hp)

/-- With links in range, the bounded walk from every node ends if and only if there is no cycle. -/
theorem scopes_end_iff (t : Tree)
    (hlinks : ∀ n ∈ t.nodes.toList, ∀ target ∈ n.links, target < t.size) :
    (∀ n ∈ t.nodes.toList, (t.ancestry (t.size + 1) n.semanticParent).length ≤ t.size) ↔
      WellFounded t.Encloses := by
  constructor
  · intro h
    constructor
    intro id
    constructor
    intro p hp
    obtain ⟨n, hn, hs⟩ := Option.bind_eq_some_iff.mp hp
    have hlen := h n ((t.mem_nodes_iff n).mpr ⟨id, hn⟩)
    rw [hs] at hlen
    exact t.acc_of_ancestry_lt (t.size + 1) p (Nat.lt_succ_of_le hlen)
  · intro hends n hn
    have hscoped := t.scoped_of_links hlinks hends
    cases hs : n.semanticParent with
    | none => simp
    | some p => exact hscoped.ancestry_length_le _ (hlinks n hn p (semanticParent_mem_links hs))

theorem fresh_replicate_iff (t : Tree) (children : List NodeId) :
    t.Fresh (Array.replicate t.size false) children ↔
      (∀ child ∈ children, child < t.size) ∧ t.root ∉ children ∧ children.Nodup := by
  unfold Fresh
  constructor
  · rintro ⟨h, hnd⟩
    exact ⟨fun child hc => (h child hc).1, fun hroot => (h t.root hroot).2.1 rfl, hnd⟩
  · rintro ⟨hlt, hroot, hnd⟩
    refine ⟨fun child hc => ⟨hlt child hc, fun heq => hroot (heq ▸ hc), ?_⟩, hnd⟩
    simp [hlt child hc]

theorem check_eq_ok_iff (t : Tree) : t.check = .ok () ↔ t.WellFormed := by
  have hstep : t.check = .ok () ↔ t.root < t.size ∧
      t.checkNodes 0 t.nodes.toList (Array.replicate t.size false) = .ok () ∧
        t.checkScopes 0 t.nodes.toList = .ok () := by
    unfold check
    by_cases h : t.size ≤ t.root
    · have hnot : ¬ t.root < t.size := Nat.not_lt.mpr h
      simp [h, hnot, bind, Except.bind, throw, throwThe, MonadExceptOf.throw]
    · have hlt : t.root < t.size := Nat.lt_of_not_le h
      cases t.checkNodes 0 t.nodes.toList (Array.replicate t.size false) <;>
        simp [h, hlt, bind, Except.bind]
  rw [hstep, checkNodes_eq_ok_iff t 0 _ _ (by simp), checkScopes_eq_ok_iff, fresh_replicate_iff]
  constructor
  · rintro ⟨hroot, ⟨hlinks, hfiles, hlt, hnot, hnd⟩, hscopes⟩
    exact ⟨hroot, hlinks, hfiles, hlt, hnd, hnot, (t.scopes_end_iff hlinks).mp hscopes⟩
  · intro h
    exact ⟨h.root_lt, ⟨h.links_lt, h.files_lt, h.children_lt, h.root_not_child, h.children_nodup⟩,
      (t.scopes_end_iff h.links_lt).mpr h.scopes_end⟩

end UnitFacts.Tree
