import UnitFacts.Proofs.Tree.Preorder

/-!
What the search for a callee finds. The search goes down the tree and keeps the better of what it finds at a
node and below each of its children. To keep the better of two is associative, so the result is the best of
all candidates in the pre-order of the subtree: the first of those that no other candidate outdoes.
-/

namespace UnitFacts

namespace Candidate

/-- The best of some candidates, the first on a tie. -/
def bestOf : List Candidate → Option Candidate
  | [] => none
  | first :: rest => better (some first) (bestOf rest)

/-- The candidate outdoes all before it and is outdone by none after it. -/
def IsFirstBest (candidates : List Candidate) (best : Candidate) : Prop :=
  ∃ before after, candidates = before ++ best :: after ∧ (∀ c ∈ before, c.score < best.score) ∧
    ∀ c ∈ after, c.score ≤ best.score

@[simp] theorem better_none_left (second : Option Candidate) : better none second = second := rfl

@[simp] theorem better_none_right (first : Option Candidate) : better first none = first := by
  cases first <;> rfl

theorem better_some (first second : Candidate) :
    better (some first) (some second) = if second.score ≤ first.score then some first else some second := rfl

theorem better_assoc (a b c : Option Candidate) : better (better a b) c = better a (better b c) := by
  cases a with
  | none => rfl
  | some a =>
    cases b with
    | none => rfl
    | some b =>
      cases c with
      | none => rw [better_none_right, better_none_right]
      | some c =>
        simp only [better_some]
        by_cases hab : b.score ≤ a.score <;> by_cases hbc : c.score ≤ b.score
        · have hac : c.score ≤ a.score := by omega
          simp only [hab, hbc, hac, if_true, better_some]
        · simp only [hab, hbc, if_true, if_false, better_some]
        · simp only [hab, hbc, if_true, if_false, better_some]
        · have hac : ¬ c.score ≤ a.score := by omega
          simp only [hab, hbc, hac, if_false, better_some]

theorem bestOf_append (first second : List Candidate) :
    bestOf (first ++ second) = better (bestOf first) (bestOf second) := by
  induction first with
  | nil => rfl
  | cons c rest ih => rw [List.cons_append, bestOf, bestOf, ih, better_assoc]

/-- To keep the better along a list is to take the best of all that its items bring. -/
theorem foldl_better {α : Type} (items : List α) (found : α → Option Candidate)
    (brought : α → List Candidate) (h : ∀ item ∈ items, found item = bestOf (brought item))
    (start : Option Candidate) :
    items.foldl (fun best item => better best (found item)) start =
      better start (bestOf (items.flatMap brought)) := by
  induction items generalizing start with
  | nil => simp [bestOf]
  | cons item rest ih =>
    have hrest := ih (fun later hlater => h later (List.mem_cons_of_mem item hlater)) (better start (found item))
    have hitem := h item List.mem_cons_self
    rw [List.foldl_cons, hrest, hitem, List.flatMap_cons, bestOf_append, better_assoc]

theorem bestOf_eq_none_iff (candidates : List Candidate) : bestOf candidates = none ↔ candidates = [] := by
  cases candidates with
  | nil => simp [bestOf]
  | cons first rest =>
    rw [bestOf]
    cases bestOf rest with
    | none => simp
    | some second =>
      rw [better_some]
      split <;> simp

theorem isFirstBest_of_bestOf {candidates : List Candidate} {best : Candidate}
    (h : bestOf candidates = some best) : IsFirstBest candidates best := by
  induction candidates generalizing best with
  | nil => cases h
  | cons first rest ih =>
    rw [bestOf] at h
    cases hrest : bestOf rest with
    | none =>
      have hnil : rest = [] := (bestOf_eq_none_iff rest).mp hrest
      rw [hrest, better_none_right] at h
      cases h
      exact ⟨[], [], by rw [hnil, List.nil_append], by simp, by simp⟩
    | some second =>
      obtain ⟨before, after, hsplit, hbefore, hafter⟩ := ih hrest
      rw [hrest, better_some] at h
      split at h
      · rename_i hle
        cases h
        refine ⟨[], rest, rfl, by simp, ?_⟩
        intro c hc
        rw [hsplit, List.mem_append, List.mem_cons] at hc
        obtain hc | hc | hc := hc
        · have hlt := hbefore c hc
          omega
        · exact hc ▸ hle
        · have hle' := hafter c hc
          omega
      · rename_i hlt
        cases h
        refine ⟨first :: before, after, by rw [hsplit, List.cons_append], ?_, hafter⟩
        rw [List.forall_mem_cons]
        exact ⟨by omega, hbefore⟩

theorem mem_of_bestOf {candidates : List Candidate} {best : Candidate}
    (h : bestOf candidates = some best) : best ∈ candidates := by
  obtain ⟨before, after, hsplit, -, -⟩ := isFirstBest_of_bestOf h
  simp [hsplit]

/-- The best of some candidates is the first of those with the highest score. -/
theorem bestOf_eq_some_iff (candidates : List Candidate) (best : Candidate) :
    bestOf candidates = some best ↔ IsFirstBest candidates best := by
  constructor
  · exact isFirstBest_of_bestOf
  · intro h
    obtain ⟨before, after, hsplit, hbefore, hafter⟩ := h
    have hlast : better (some best) (bestOf after) = some best := by
      cases hafter' : bestOf after with
      | none => rfl
      | some c => rw [better_some, if_pos (hafter c (mem_of_bestOf hafter'))]
    rw [hsplit, bestOf_append, bestOf, hlast]
    cases hbefore' : bestOf before with
    | none => rfl
    | some c =>
      have hlt := hbefore c (mem_of_bestOf hbefore')
      rw [better_some, if_neg (by omega)]

end Candidate

namespace Tree

/-- The node leads to a callable declaration: through the declaration it refers to, or else as a callable
declaration itself. -/
inductive LeadsTo (t : Tree) (id : NodeId) : NodeId → Prop
  | linked {decl target : NodeId} : t.referenced? id = some decl → t.callableFor? decl = some target →
      LeadsTo t id target
  | self {target : NodeId} : (∀ decl, t.referenced? id = some decl → t.callableFor? decl = none) →
      t.kindIn NodeKind.isCallable id = true → t.callableFor? id = some target → LeadsTo t id target

/-- The visited node is a candidate of a search that starts with `top` at a given depth: where it leads, and
the weight of its kind less ten for each level. -/
structure Scores (t : Tree) (depth : Int) (top v : Visit) (found : Candidate) : Prop where
  leads : t.LeadsTo v.node found.target
  score : ∃ kind, t.kind? v.node = some kind ∧
    found.score = kind.calleeWeight - 10 * (depth + (v.path.length - top.path.length))

/-- The search at and below `top` finds the first of the candidates with the highest score; `visits` is the
subtree in pre-order. -/
structure FindsBest (t : Tree) (depth : Int) (top : Visit) (visits : List Visit) : Prop where
  none_iff : t.bestCandidate? depth top.node = none ↔
    ∀ id, t.Below top.node id → ∀ target, ¬ t.LeadsTo id target
  some_iff : ∀ best, t.bestCandidate? depth top.node = some best ↔
    ∃ before v after, visits = before ++ v :: after ∧ t.Scores depth top v best ∧
      (∀ w ∈ before, ∀ other, t.Scores depth top w other → other.score < best.score) ∧
      ∀ w ∈ after, ∀ other, t.Scores depth top w other → other.score ≤ best.score

/-- Every search for a callee finds the best candidate, and what a call invokes can be called. -/
structure CalleesBest (t : Tree) : Prop where
  search : ∀ top : Visit, t.RootPath top.node top.path → ∃ visits,
    t.Preorder top.path [top.node] visits ∧ (∀ id, id ∈ visits.map (·.node) ↔ t.Below top.node id) ∧
      ∀ depth, t.FindsBest depth top visits
  callable : ∀ call target, t.callTarget? call = some target → t.kindIn NodeKind.isCallable target = true

variable {t : Tree}

/-! ### Candidates -/

theorem kindIn_of_callableOnly {id? : Option NodeId} {id : NodeId} (h : t.callableOnly id? = some id) :
    t.kindIn NodeKind.isCallable id = true :=
  (Option.filter_eq_some_iff.mp h).2

theorem kindIn_of_callableFor? {decl id : NodeId} (h : t.callableFor? decl = some id) :
    t.kindIn NodeKind.isCallable id = true := by
  rw [callableFor?] at h
  split at h
  · rename_i definition hdefinition
    cases h
    exact kindIn_of_callableOnly hdefinition
  · split at h
    · rename_i canonical hcanonical
      rcases Option.or_eq_some_iff.mp h with hdefinition | ⟨-, hself⟩
      · exact kindIn_of_callableOnly hdefinition
      · cases hself
        exact kindIn_of_callableOnly hcanonical
    · exact kindIn_of_callableOnly h

theorem LeadsTo.isCallable {id target : NodeId} (h : t.LeadsTo id target) :
    t.kindIn NodeKind.isCallable target = true := by
  cases h with
  | linked _ htarget => exact kindIn_of_callableFor? htarget
  | self _ _ htarget => exact kindIn_of_callableFor? htarget

theorem ownCallable?_eq_some_iff (id target : NodeId) :
    t.ownCallable? id = some target ↔ t.LeadsTo id target := by
  rw [ownCallable?, Option.or_eq_some_iff, Option.bind_eq_some_iff]
  constructor
  · intro h
    obtain ⟨decl, hdecl, htarget⟩ | ⟨hnone, hself⟩ := h
    · exact .linked hdecl htarget
    · split at hself
      · rename_i hcallable
        refine .self ?_ hcallable hself
        intro decl hdecl
        rwa [hdecl, Option.bind_some] at hnone
      · cases hself
  · intro h
    cases h with
    | @linked decl _ hdecl htarget => exact Or.inl ⟨decl, hdecl, htarget⟩
    | self hnone hcallable htarget =>
      refine Or.inr ⟨?_, by rw [if_pos hcallable, htarget]⟩
      cases hdecl : t.referenced? id with
      | none => rfl
      | some decl => exact hnone decl hdecl

theorem ownCandidate?_eq_some_iff (depth : Int) (id : NodeId) (found : Candidate) :
    t.ownCandidate? depth id = some found ↔
      t.LeadsTo id found.target ∧ ∃ kind, t.kind? id = some kind ∧ found.score = kind.calleeScore depth := by
  rw [← ownCallable?_eq_some_iff, ownCandidate?]
  obtain ⟨target, score⟩ := found
  cases t.kind? id with
  | none => simp
  | some kind =>
    cases t.ownCallable? id with
    | none => simp
    | some callable => simp [eq_comm]

/-- A node that leads somewhere is a candidate at whatever depth. -/
theorem ownCandidate?_eq_none_iff (depth : Int) (id : NodeId) :
    t.ownCandidate? depth id = none ↔ ∀ target, ¬ t.LeadsTo id target := by
  simp only [← ownCallable?_eq_some_iff, ← Option.eq_none_iff_forall_ne_some]
  rw [ownCandidate?]
  cases hn : t.node? id with
  | none =>
    have hnone : t.ownCallable? id = none := by simp [ownCallable?, referenced?, kindIn, kind?, hn]
    simp [hnone]
  | some n =>
    have hkind : t.kind? id = some n.kind := by simp [kind?, hn]
    rw [hkind]
    cases t.ownCallable? id <;> simp

/-- A visited node as a candidate of a search that would stand at depth `base` at the root. -/
def candidateAt? (t : Tree) (base : Int) (v : Visit) : Option Candidate :=
  t.ownCandidate? (base + v.path.length) v.node

theorem scores_iff (depth : Int) (top v : Visit) (found : Candidate) :
    t.Scores depth top v found ↔ t.candidateAt? (depth - top.path.length) v = some found := by
  have hdepth : depth - top.path.length + v.path.length = depth + (v.path.length - top.path.length) := by omega
  rw [candidateAt?, ownCandidate?_eq_some_iff, hdepth]
  constructor
  · exact fun h => ⟨h.leads, h.score⟩
  · exact fun h => ⟨h.1, h.2⟩

/-! ### The search -/

/-- The search takes the best of the candidates on the walk through the subtree. -/
theorem bestBelow_eq_bestOf (base : Int) (fuel : Nat) (path : List NodeId) (id : NodeId) :
    t.bestBelow fuel (base + path.length) id =
      Candidate.bestOf ((t.visitsBelow (fun _ => true) fuel path id).filterMap (t.candidateAt? base)) := by
  induction fuel generalizing path id with
  | zero => rfl
  | succ fuel ih =>
    have hchild : ∀ child ∈ t.children id, t.bestBelow fuel (base + path.length + 1) child =
        Candidate.bestOf
          ((t.visitsBelow (fun _ => true) fuel (id :: path) child).filterMap (t.candidateAt? base)) := by
      intro child _
      have hdepth : base + path.length + 1 = base + (id :: path).length := by
        rw [List.length_cons]
        omega
      rw [hdepth, ih]
    have hown : t.ownCandidate? (base + path.length) id = t.candidateAt? base ⟨id, path⟩ := rfl
    rw [bestBelow, Candidate.foldl_better _ _ _ hchild, visitsBelow_succ, if_pos rfl, hown,
      ← List.filterMap_flatMap]
    cases hfound : t.candidateAt? base ⟨id, path⟩ with
    | none => rw [List.filterMap_cons_none hfound, Candidate.better_none_left]
    | some found => rw [List.filterMap_cons_some hfound, Candidate.bestOf]

/-- The first best of the candidates that visits bring, told by the visits. -/
theorem isFirstBest_filterMap_iff {α : Type} (f : α → Option Candidate) (items : List α) (best : Candidate) :
    Candidate.IsFirstBest (items.filterMap f) best ↔
      ∃ before item after, items = before ++ item :: after ∧ f item = some best ∧
        (∀ a ∈ before, ∀ other, f a = some other → other.score < best.score) ∧
        ∀ a ∈ after, ∀ other, f a = some other → other.score ≤ best.score := by
  constructor
  · intro h
    obtain ⟨before, after, hsplit, hbefore, hafter⟩ := h
    obtain ⟨front, rest, hitems, hfront, hrest⟩ := List.filterMap_eq_append_iff.mp hsplit
    obtain ⟨passed, item, behind, hbehind, hpassed, hitem, hafter'⟩ := List.filterMap_eq_cons_iff.mp hrest
    refine ⟨front ++ passed, item, behind, ?_, hitem, ?_, ?_⟩
    · rw [hitems, hbehind, List.append_assoc]
    · intro a ha other hother
      obtain ha | ha := List.mem_append.mp ha
      · exact hbefore other (hfront ▸ List.mem_filterMap.mpr ⟨a, ha, hother⟩)
      · rw [hpassed a ha] at hother
        cases hother
    · intro a ha other hother
      exact hafter other (hafter' ▸ List.mem_filterMap.mpr ⟨a, ha, hother⟩)
  · intro h
    obtain ⟨before, item, after, hsplit, hitem, hbefore, hafter⟩ := h
    refine ⟨before.filterMap f, after.filterMap f, ?_, ?_, ?_⟩
    · rw [hsplit, List.filterMap_append, List.filterMap_cons_some hitem]
    · intro c hc
      obtain ⟨a, ha, hc⟩ := List.mem_filterMap.mp hc
      exact hbefore a ha c hc
    · intro c hc
      obtain ⟨a, ha, hc⟩ := List.mem_filterMap.mp hc
      exact hafter a ha c hc

theorem bestCandidate?_eq_bestOf (depth : Int) (top : Visit) :
    t.bestCandidate? depth top.node =
      Candidate.bestOf ((t.visitsBelow (fun _ => true) t.size top.path top.node).filterMap
        (t.candidateAt? (depth - top.path.length))) := by
  have hdepth : depth = depth - top.path.length + top.path.length := by omega
  rw [bestCandidate?, ← bestBelow_eq_bestOf, ← hdepth]

/-- What a call invokes can be called. -/
theorem kindIn_of_callTarget? {call target : NodeId} (h : t.callTarget? call = some target) :
    t.kindIn NodeKind.isCallable target = true := by
  obtain hlinked | ⟨-, hbest⟩ := Option.or_eq_some_iff.mp h
  · obtain ⟨decl, -, hdecl⟩ := Option.bind_eq_some_iff.mp hlinked
    exact kindIn_of_callableFor? hdecl
  · obtain ⟨best, hfound, rfl⟩ := Option.map_eq_some_iff.mp hbest
    obtain ⟨callee, -, hfound⟩ := Option.bind_eq_some_iff.mp hfound
    rw [bestCandidate?_eq_bestOf 0 ⟨callee, []⟩] at hfound
    obtain ⟨v, -, hv⟩ := List.mem_filterMap.mp (Candidate.mem_of_bestOf hfound)
    exact ((ownCandidate?_eq_some_iff _ _ _).mp hv).1.isCallable

theorem findsBest {top : Visit} (hnodes : ∀ id,
    id ∈ (t.visitsBelow (fun _ => true) t.size top.path top.node).map (·.node) ↔ t.Below top.node id)
    (depth : Int) :
    t.FindsBest depth top (t.visitsBelow (fun _ => true) t.size top.path top.node) := by
  constructor
  · rw [bestCandidate?_eq_bestOf, Candidate.bestOf_eq_none_iff, List.filterMap_eq_nil_iff]
    simp only [candidateAt?, ownCandidate?_eq_none_iff, ← hnodes, List.forall_mem_map]
  · intro best
    simp only [scores_iff]
    rw [bestCandidate?_eq_bestOf, Candidate.bestOf_eq_some_iff, isFirstBest_filterMap_iff]

/-- In every tree that the check accepts, the search for a callee finds the best candidate. -/
theorem calleesBest_of_check (t : Tree) (h : t.check = .ok ()) : t.CalleesBest := by
  have ht := (check_eq_ok_iff t).mp h
  constructor
  · intro top htop
    have horder := ht.preorder_visitsBelow t.size top.path top.node htop (Nat.le_add_right _ _)
    have hnodes : ∀ id, id ∈ (t.visitsBelow (fun _ => true) t.size top.path top.node).map (·.node) ↔
        t.Below top.node id := by
      intro id
      rw [horder.mem_nodes_iff]
      simp
    exact ⟨_, horder, hnodes, findsBest hnodes⟩
  · exact fun call target htarget => kindIn_of_callTarget? htarget

/-- A call whose callee wraps the names of two functions `f` and `g`, and is itself linked to `g`. -/
def overloadedTree : Tree where
  files := [⟨"main.cpp", true, false⟩]
  root := 0
  nodes := #[
    { kind := .unit, children := [1, 2, 3] },
    { kind := .functionDecl, spelling := "f", position := some ⟨0, 1, 6⟩, semanticParent := some 0 },
    { kind := .functionDecl, spelling := "g", position := some ⟨0, 2, 6⟩, semanticParent := some 0 },
    { kind := .callExpr, position := some ⟨0, 3, 9⟩, children := [4, 7] },
    { kind := .unexposedExpr, referenced := some 2, children := [5, 6] },
    { kind := .declRefExpr, spelling := "f", referenced := some 1 },
    { kind := .declRefExpr, spelling := "g", referenced := some 2 },
    { kind := .integerLiteral }]

theorem calleesBest_of_check_overloadedTree :
    overloadedTree.check = .ok () ∧ overloadedTree.bestCandidate? 0 4 = some ⟨1, 390⟩ ∧
      overloadedTree.bestCandidate? (-2) 4 = some ⟨1, 410⟩ ∧ overloadedTree.bestCandidate? 0 7 = none ∧
      overloadedTree.callTarget? 3 = some 1 ∧ overloadedTree.CalleesBest :=
  ⟨by decide, by decide, by decide, by decide, by decide, calleesBest_of_check overloadedTree (by decide)⟩

end Tree

end UnitFacts
