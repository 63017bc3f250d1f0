import Mathlib.Data.List.Find
import UnitFacts.Extract
import UnitFacts.Proofs.Tree.Label
import UnitFacts.Proofs.Tree.Walk

/-!
The facts of a well-formed tree stay as they are when nodes and files are added behind those it has.
Nothing that the extraction looks up lies outside the tables, for it would find something else there
in some longer table; and nothing is cut short by the size of the node table, for a longer table
would cut it later.
-/

namespace UnitFacts.Tree

/-- `t'` has everything of `t` at the same index, and perhaps more nodes and files behind it. -/
structure Extends (t t' : Tree) : Prop where
  root : t'.root = t.root
  node? : ∀ id, id < t.size → t'.node? id = t.node? id
  file? : ∀ file : FileId, file < t.files.length → t'.files[file]? = t.files[file]?
  inclusions : t'.inclusions = t.inclusions
  diagnostics : t'.diagnostics = t.diagnostics

private theorem findSome?_congr_of_mem {α β : Type} {f g : α → Option β} {items : List α}
    (h : ∀ a ∈ items, f a = g a) : items.findSome? f = items.findSome? g := by
  induction items with
  | nil => rfl
  | cons a rest ih =>
    rw [List.findSome?_cons, List.findSome?_cons, h a (by simp),
      ih fun b hb => h b (List.mem_cons_of_mem _ hb)]

/-- An optional index that is absent or in the node table. -/
def Listed (t : Tree) (id? : Option NodeId) : Prop := ∀ id, id? = some id → id < t.size

namespace Listed

variable {t : Tree}

theorem of_lt {id : NodeId} (h : id < t.size) : t.Listed (some id) := by
  rintro k ⟨⟩
  exact h

theorem or {a b : Option NodeId} (ha : t.Listed a) (hb : t.Listed b) : t.Listed (a.or b) := by
  cases a with
  | none => simpa using hb
  | some k => exact ha

theorem bind {a : Option NodeId} {f : NodeId → Option NodeId} (ha : t.Listed a)
    (hf : ∀ k, k < t.size → t.Listed (f k)) : t.Listed (a.bind f) := by
  intro k hk
  obtain ⟨m, hm, hfm⟩ := Option.bind_eq_some_iff.mp hk
  exact hf m (ha m hm) k hfm

theorem callableOnly {a : Option NodeId} (ha : t.Listed a) : t.Listed (t.callableOnly a) := by
  intro k hk
  rw [Tree.callableOnly, Option.filter_eq_some_iff] at hk
  exact ha k hk.1

theorem find? {ids : List NodeId} (hids : ∀ k ∈ ids, k < t.size) (test : NodeId → Bool) :
    t.Listed (ids.find? test) := by
  intro k hk
  exact hids k (List.mem_of_find?_eq_some hk)

theorem better {a b : Option Candidate} (ha : t.Listed (a.map (·.target)))
    (hb : t.Listed (b.map (·.target))) : t.Listed ((Candidate.better a b).map (·.target)) := by
  cases a with
  | none => exact hb
  | some a =>
    cases b with
    | none => exact ha
    | some b =>
      rw [Candidate.better]
      split
      · exact ha
      · exact hb

end Listed

theorem isUnderCallee_eq_any (t : Tree) (v : Visit) :
    t.isUnderCallee v = (v.steps.find? fun step => decide (t.kind? step.1 = some .callExpr)).any
      fun step => decide (t.calleeChild? step.1 = some step.2) := by
  unfold isUnderCallee
  cases v.steps.find? fun step => decide (t.kind? step.1 = some .callExpr) <;> rfl

/-- The target and usage of a visited node other than a call. -/
def plainUse? (t : Tree) (v : Visit) (kind : NodeKind) : Option (NodeId × Usage) :=
  if kind = .typeRef then (t.referenced? v.node).map fun target => (target, Usage.typeRef)
  else if kind.isNameUse && !t.isUnderCallee v then
    (t.useTarget? v.node).map fun target => (target, t.access v)
  else none

theorem reportedUse?_of_kind (t : Tree) (v : Visit) (kind : NodeKind)
    (hkind : t.kind? v.node = some kind)
    (hne : kind ≠ .callExpr) :
    t.reportedUse? v =
      match t.plainUse? v kind, t.lineCol? v.node with
      | some (target, usage), some (line, col) =>
        if t.isReportedTarget target then some (target, usage, line, col) else none
      | _, _ => none := by
  rw [reportedUse?, hkind]
  cases kind with
  | callExpr => exact absurd rfl hne
  | _ => rfl

namespace WellFormed

variable {t : Tree} (ht : t.WellFormed)
include ht

theorem listed_link (link : Node → Option NodeId) (hlink : ∀ n k, link n = some k → k ∈ n.links)
    (id : NodeId) : t.Listed ((t.node? id).bind link) := by
  intro k hk
  obtain ⟨n, hn, hl⟩ := Option.bind_eq_some_iff.mp hk
  exact ht.links_lt n ((t.mem_nodes_iff n).mpr ⟨id, hn⟩) k (hlink n k hl)

theorem listed_semanticParent? (id : NodeId) : t.Listed (t.semanticParent? id) :=
  ht.listed_link (·.semanticParent) (fun n k h => (mem_links_iff n k).mpr (by simp [h])) id

theorem listed_referenced? (id : NodeId) : t.Listed (t.referenced? id) :=
  ht.listed_link (·.referenced) (fun n k h => (mem_links_iff n k).mpr (by simp [h])) id

theorem listed_canonical? (id : NodeId) : t.Listed (t.canonical? id) :=
  ht.listed_link (·.canonical) (fun n k h => (mem_links_iff n k).mpr (by simp [h])) id

theorem listed_definition? (id : NodeId) : t.Listed (t.definition? id) :=
  ht.listed_link (·.definition) (fun n k h => (mem_links_iff n k).mpr (by simp [h])) id

theorem listed_callableFor? {decl : NodeId} (h : decl < t.size) :
    t.Listed (t.callableFor? decl) := by
  rw [callableFor?]
  split
  · rename_i definition heq
    exact heq ▸ (ht.listed_definition? decl).callableOnly
  · split
    · rename_i canonical heq
      have hcanonical : t.Listed (some canonical) := heq ▸ (ht.listed_canonical? decl).callableOnly
      exact (ht.listed_definition? canonical).callableOnly.or hcanonical
    · exact (Listed.of_lt h).callableOnly

theorem listed_calleeChild? (call : NodeId) : t.Listed (t.calleeChild? call) := by
  have hchildren : ∀ k ∈ t.children call, k < t.size := fun k hk => ht.child_lt hk
  refine (Listed.find? hchildren _).or ?_
  intro k hk
  exact hchildren k (List.mem_of_mem_head? hk)

theorem listed_ownCallable? {id : NodeId} (h : id < t.size) : t.Listed (t.ownCallable? id) := by
  refine ((ht.listed_referenced? id).bind fun k hk => ht.listed_callableFor? hk).or ?_
  split
  · exact ht.listed_callableFor? h
  · simp [Listed]

theorem listed_ownCandidate? (depth : Int) {id : NodeId} (h : id < t.size) :
    t.Listed ((t.ownCandidate? depth id).map (·.target)) := by
  rw [ownCandidate?]
  split
  · rename_i kind target _ heq
    rw [Option.map_some, ← heq]
    exact ht.listed_ownCallable? h
  · simp [Listed]

theorem listed_bestBelow (fuel : Nat) (depth : Int) {id : NodeId} (h : id < t.size) :
    t.Listed ((t.bestBelow fuel depth id).map (·.target)) := by
  induction fuel generalizing depth id with
  | zero => simp [bestBelow, Listed]
  | succ fuel ih =>
    rw [bestBelow]
    refine List.foldlRecOn (motive := fun best : Option Candidate => t.Listed (best.map (·.target))) _ _
      (ht.listed_ownCandidate? depth h) ?_
    intro best hbest child hc
    exact hbest.better (ih (depth + 1) (ht.child_lt hc))

theorem listed_callTarget? (call : NodeId) : t.Listed (t.callTarget? call) := by
  refine ((ht.listed_referenced? call).bind fun k hk => ht.listed_callableFor? hk).or ?_
  rw [Option.map_bind]
  exact (ht.listed_calleeChild? call).bind fun child hc => ht.listed_bestBelow t.size 0 hc

theorem listed_useTarget? (id : NodeId) : t.Listed (t.useTarget? id) := by
  intro k hk
  obtain ⟨decl, hdecl, rfl⟩ := Option.map_eq_some_iff.mp hk
  have hlt := ht.listed_referenced? id decl hdecl
  cases hc : t.callableFor? decl with
  | none => simpa [hc] using hlt
  | some k => simpa [hc] using ht.listed_callableFor? hlt k hc

theorem mem_ancestry_lt (fuel : Nat) {id? : Option NodeId} (h : t.Listed id?) :
    ∀ k ∈ t.ancestry fuel id?, k < t.size := by
  cases id? with
  | none => simp
  | some id =>
    intro k hk
    exact ht.isScoped.lt_size_of_isAround (t.isAround_of_mem_ancestry fuel id k hk) (h id rfl)

theorem step_lt {v : Visit} (hv : t.RootPath v.node v.path) {step : NodeId × NodeId}
    (hstep : step ∈ v.steps) :
    step.1 < t.size :=
  ht.rootPath_mem_lt hv (List.of_mem_zip hstep).1

theorem reportedCall?_lt {id : NodeId} {call : NodeId × UInt32 × UInt32}
    (h : t.reportedCall? id = some call) :
    call.1 < t.size := by
  rw [reportedCall?] at h
  split at h
  · rename_i target line col htarget _
    split at h
    · cases h
    · cases h
      exact ht.listed_callTarget? id target htarget
  · cases h

theorem listed_plainUse? (v : Visit) (kind : NodeKind) :
    t.Listed ((t.plainUse? v kind).map (·.1)) := by
  rw [plainUse?]
  split
  · simpa [Function.comp_def] using ht.listed_referenced? v.node
  · split
    · simpa [Function.comp_def] using ht.listed_useTarget? v.node
    · simp [Listed]

theorem listed_caller? {v : Visit} (hpath : ∀ k ∈ v.path, k < t.size) : t.Listed (t.caller? v) := by
  refine (Listed.find? hpath _).or (Listed.find? ?_ _)
  intro k hk
  exact ht.mem_ancestry_lt callerReach (ht.listed_semanticParent? v.node) k
    ((List.takeWhile_subset _) hk)

end WellFormed

namespace Extends

variable {t t' : Tree} (hx : t.Extends t')
include hx

theorem size_le : t.size ≤ t'.size := by
  cases hsize : t.size with
  | zero => exact Nat.zero_le _
  | succ last =>
    have hlast : last < t.size := by omega
    obtain ⟨n, hn⟩ := exists_node? hlast
    exact lt_size_of_node? ((hx.node? last hlast).trans hn)

section Lookup

variable {id : NodeId} (h : id < t.size)
include h

theorem kind?_eq : t'.kind? id = t.kind? id := by rw [kind?, kind?, hx.node? id h]

theorem kindIn_eq (group : NodeKind → Bool) : t'.kindIn group id = t.kindIn group id := by
  rw [kindIn, kindIn, hx.kind?_eq h]

theorem spelling_eq : t'.spelling id = t.spelling id := by rw [spelling, spelling, hx.node? id h]

theorem children_eq : t'.children id = t.children id := by rw [children, children, hx.node? id h]

theorem tokens_eq : t'.tokens id = t.tokens id := by rw [tokens, tokens, hx.node? id h]

theorem endLine_eq : t'.endLine id = t.endLine id := by rw [endLine, endLine, hx.node? id h]

theorem semanticParent?_eq : t'.semanticParent? id = t.semanticParent? id := by
  rw [semanticParent?, semanticParent?, hx.node? id h]

theorem referenced?_eq : t'.referenced? id = t.referenced? id := by
  rw [referenced?, referenced?, hx.node? id h]

theorem canonical?_eq : t'.canonical? id = t.canonical? id := by
  rw [canonical?, canonical?, hx.node? id h]

theorem definition?_eq : t'.definition? id = t.definition? id := by
  rw [definition?, definition?, hx.node? id h]

theorem isDefinition_eq : t'.isDefinition id = t.isDefinition id := by
  rw [isDefinition, isDefinition, hx.node? id h]

theorem isUnit_eq : t'.isUnit id = t.isUnit id := hx.kindIn_eq h _

end Lookup

theorem callableOnly_eq {id? : Option NodeId} (h : t.Listed id?) :
    t'.callableOnly id? = t.callableOnly id? := by
  cases id? with
  | none => rfl
  | some id => simp only [callableOnly, Option.filter_some, hx.kindIn_eq (h id rfl)]

theorem find?_kindIn_eq {ids : List NodeId} (hids : ∀ k ∈ ids, k < t.size)
    (group : NodeKind → Bool) :
    (ids.find? fun id => t'.kindIn group id) = ids.find? fun id => t.kindIn group id :=
  List.find?_congr fun k hk => hx.kindIn_eq (hids k hk) group

theorem takeWhile_isUnit_eq {ids : List NodeId} (hids : ∀ k ∈ ids, k < t.size) :
    (ids.takeWhile fun id => !t'.isUnit id) = ids.takeWhile fun id => !t.isUnit id := by
  induction ids with
  | nil => rfl
  | cons id rest ih =>
    rw [List.takeWhile_cons, List.takeWhile_cons, hx.isUnit_eq (hids id (by simp)),
      ih fun k hk => hids k (List.mem_cons_of_mem _ hk)]

variable (ht : t.WellFormed)
include ht

theorem location?_eq {id : NodeId} (h : id < t.size) : t'.location? id = t.location? id := by
  obtain ⟨n, hn⟩ := exists_node? h
  rw [location?, location?, hx.node? id h, hn]
  cases hp : n.position with
  | none => simp [hp]
  | some position =>
    have hfile := ht.files_lt n ((t.mem_nodes_iff n).mpr ⟨id, hn⟩) position hp
    simp [hp, hx.file? position.file hfile]

theorem inSystemHeader_eq {id : NodeId} (h : id < t.size) :
    t'.inSystemHeader id = t.inSystemHeader id := by
  rw [inSystemHeader, inSystemHeader, hx.location?_eq ht h]

theorem lineCol?_eq {id : NodeId} (h : id < t.size) : t'.lineCol? id = t.lineCol? id := by
  rw [lineCol?, lineCol?, hx.location?_eq ht h]

theorem ancestry_eq (fuel : Nat) {id? : Option NodeId} (h : t.Listed id?) :
    t'.ancestry fuel id? = t.ancestry fuel id? := by
  induction fuel generalizing id? with
  | zero => simp
  | succ fuel ih =>
    cases id? with
    | none => simp
    | some id =>
      rw [ancestry_succ, ancestry_succ, hx.semanticParent?_eq (h id rfl),
        ih (ht.listed_semanticParent? id)]

theorem qualifiedName_eq {id : NodeId} (h : id < t.size) :
    t'.qualifiedName id = t.qualifiedName id :=
  ht.isScoped.qualifiedName_eq_of_label_eq (fun k hk => congrArg (Option.map Node.label) (hx.node? k hk)) h

theorem isLocal_eq {id : NodeId} (h : id < t.size) : t'.isLocal id = t.isLocal id := by
  rw [isLocal, isLocal, hx.semanticParent?_eq h]
  cases hp : t.semanticParent? id with
  | none => rfl
  | some parent => exact hx.kindIn_eq (ht.listed_semanticParent? id parent hp) _

theorem symbolFact?_eq {id : NodeId} (h : id < t.size) : t'.symbolFact? id = t.symbolFact? id := by
  have hverdict : t'.symbolVerdict id = t.symbolVerdict id := by
    rw [symbolVerdict, symbolVerdict, hx.kind?_eq h, hx.isDefinition_eq h, hx.isLocal_eq ht h,
      hx.spelling_eq h]
  rw [symbolFact?, symbolFact?, hverdict, hx.lineCol?_eq ht h, hx.spelling_eq h,
    hx.qualifiedName_eq ht h,
    hx.endLine_eq h]

theorem callableFor?_eq {decl : NodeId} (h : decl < t.size) :
    t'.callableFor? decl = t.callableFor? decl := by
  have hself : t'.callableOnly (some decl) = t.callableOnly (some decl) := hx.callableOnly_eq (Listed.of_lt h)
  rw [callableFor?, callableFor?, hx.definition?_eq h, hx.canonical?_eq h, hself,
    hx.callableOnly_eq (ht.listed_definition? decl), hx.callableOnly_eq (ht.listed_canonical? decl)]
  cases t.callableOnly (t.definition? decl) with
  | some definition => rfl
  | none =>
    cases hc : t.callableOnly (t.canonical? decl) with
    | none => rfl
    | some canonical =>
      have hlt := (ht.listed_canonical? decl).callableOnly canonical hc
      simp only [hx.definition?_eq hlt, hx.callableOnly_eq (ht.listed_definition? canonical)]

theorem bind_callableFor?_eq {id? : Option NodeId} (h : t.Listed id?) :
    id?.bind t'.callableFor? = id?.bind t.callableFor? := by
  cases id? with
  | none => rfl
  | some id => exact hx.callableFor?_eq ht (h id rfl)

theorem ownCandidate?_eq (depth : Int) {id : NodeId} (h : id < t.size) :
    t'.ownCandidate? depth id = t.ownCandidate? depth id := by
  have hown : t'.ownCallable? id = t.ownCallable? id := by
    rw [ownCallable?, ownCallable?, hx.referenced?_eq h,
      hx.bind_callableFor?_eq ht (ht.listed_referenced? id),
      hx.kindIn_eq h, hx.callableFor?_eq ht h]
  rw [ownCandidate?, ownCandidate?, hx.kind?_eq h, hown]

theorem bestBelow_eq (fuel : Nat) (depth : Int) {id : NodeId} (h : id < t.size) :
    t'.bestBelow fuel depth id = t.bestBelow fuel depth id := by
  induction fuel generalizing depth id with
  | zero => rfl
  | succ fuel ih =>
    rw [bestBelow, bestBelow, hx.children_eq h, hx.ownCandidate?_eq ht depth h]
    apply List.foldl_ext
    intro best child hc
    rw [ih (depth + 1) (ht.child_lt hc)]

theorem calleeChild?_eq {call : NodeId} (h : call < t.size) :
    t'.calleeChild? call = t.calleeChild? call := by
  rw [calleeChild?, calleeChild?, hx.children_eq h, hx.find?_kindIn_eq fun k hk => ht.child_lt hk]

/-- The search for the callee is the one step that needs the call to be on the walk: elsewhere the
children may run in circles, and a deeper search would find other scores. -/
theorem callTarget?_eq {call : NodeId} {path : List NodeId} (hpath : t.RootPath call path) :
    t'.callTarget? call = t.callTarget? call := by
  have h := ht.rootPath_lt hpath
  have hbest : (t.calleeChild? call).bind (t'.bestCandidate? 0) =
      (t.calleeChild? call).bind (t.bestCandidate? 0) := by
    cases hc : t.calleeChild? call with
    | none => rfl
    | some child =>
      have hchild : child ∈ t.children call := by
        rcases Option.or_eq_some_iff.mp hc with hfind | ⟨-, hhead⟩
        · exact List.mem_of_find?_eq_some hfind
        · exact List.mem_of_mem_head? hhead
      have hsize := hx.size_le
      simp only [Option.bind_some, bestCandidate?, hx.bestBelow_eq ht _ 0 (ht.child_lt hchild)]
      exact ht.bestBelow_eq t'.size t.size 0 _ child (hpath.child hchild) (by simp; omega) (by simp)
  rw [callTarget?, callTarget?, hx.referenced?_eq h,
    hx.bind_callableFor?_eq ht (ht.listed_referenced? call),
    hx.calleeChild?_eq ht h, hbest]

theorem useTarget?_eq {id : NodeId} (h : id < t.size) : t'.useTarget? id = t.useTarget? id := by
  rw [useTarget?, useTarget?, hx.referenced?_eq h]
  cases hr : t.referenced? id with
  | none => rfl
  | some decl => simp only [Option.map_some, hx.callableFor?_eq ht (ht.listed_referenced? id decl hr)]

theorem isReportedTarget_eq {decl : NodeId} (h : decl < t.size) :
    t'.isReportedTarget decl = t.isReportedTarget decl := by
  rw [isReportedTarget, isReportedTarget, hx.inSystemHeader_eq ht h, hx.kind?_eq h,
    hx.isLocal_eq ht h]

section Visit

variable {v : Visit} (hv : t.RootPath v.node v.path)
include hv

theorem access_eq : t'.access v = t.access v := by
  have hat : ∀ step ∈ v.steps, t'.accessAt? step.1 step.2 = t.accessAt? step.1 step.2 := by
    intro step hstep
    have h := ht.step_lt hv hstep
    rw [accessAt?, accessAt?, hx.kind?_eq h, hx.children_eq h, hx.tokens_eq h]
  rw [access, access, findSome?_congr_of_mem hat]

theorem isUnderCallee_eq : t'.isUnderCallee v = t.isUnderCallee v := by
  have hfind : (v.steps.find? fun step => decide (t'.kind? step.1 = some .callExpr)) =
      v.steps.find? fun step => decide (t.kind? step.1 = some .callExpr) := by
    apply List.find?_congr
    intro step hstep
    rw [hx.kind?_eq (ht.step_lt hv hstep)]
  rw [isUnderCallee_eq_any, isUnderCallee_eq_any, hfind]
  cases hstep : v.steps.find? fun step => decide (t.kind? step.1 = some .callExpr) with
  | none => rfl
  | some step =>
    have hlt := ht.step_lt hv (List.mem_of_find?_eq_some hstep)
    rw [Option.any_some, Option.any_some, hx.calleeChild?_eq ht hlt]

theorem caller?_eq : t'.caller? v = t.caller? v := by
  have hlt := ht.rootPath_lt hv
  have hscopes : ∀ k ∈ t.ancestry callerReach (t.semanticParent? v.node), k < t.size :=
    ht.mem_ancestry_lt _ (ht.listed_semanticParent? v.node)
  have hinner : ∀ k ∈ (t.ancestry callerReach (t.semanticParent? v.node)).takeWhile fun id => !t.isUnit id,
      k < t.size := fun k hk => hscopes k (List.takeWhile_subset _ hk)
  rw [caller?, caller?, hx.find?_kindIn_eq fun k hk => ht.rootPath_mem_lt hv hk,
    hx.semanticParent?_eq hlt,
    hx.ancestry_eq ht _ (ht.listed_semanticParent? v.node), hx.takeWhile_isUnit_eq hscopes,
    hx.find?_kindIn_eq hinner]

theorem reportedCall?_eq : t'.reportedCall? v.node = t.reportedCall? v.node := by
  rw [reportedCall?, reportedCall?, hx.callTarget?_eq ht hv, hx.lineCol?_eq ht (ht.rootPath_lt hv)]
  cases htarget : t.callTarget? v.node with
  | none => rfl
  | some target =>
    cases t.lineCol? v.node with
    | none => rfl
    | some place => simp only [hx.inSystemHeader_eq ht (ht.listed_callTarget? v.node target htarget)]

theorem plainUse?_eq (kind : NodeKind) : t'.plainUse? v kind = t.plainUse? v kind := by
  have hlt := ht.rootPath_lt hv
  rw [plainUse?, plainUse?, hx.referenced?_eq hlt, hx.useTarget?_eq ht hlt,
    hx.isUnderCallee_eq ht hv,
    hx.access_eq ht hv]

theorem referenceFact?_eq : t'.referenceFact? v = t.referenceFact? v := by
  have hlt := ht.rootPath_lt hv
  rw [referenceFact?, referenceFact?]
  cases hkind : t.kind? v.node with
  | none => rw [reportedUse?, reportedUse?, hx.kind?_eq hlt, hkind]; rfl
  | some kind =>
    by_cases hcall : kind = .callExpr
    · subst hcall
      rw [reportedUse?, reportedUse?, hx.kind?_eq hlt, hkind, hx.reportedCall?_eq ht hv]
      cases h : t.reportedCall? v.node with
      | none => rfl
      | some call => simp only [Option.map_some, hx.qualifiedName_eq ht (ht.reportedCall?_lt h)]
    · rw [t.reportedUse?_of_kind v kind hkind hcall,
        t'.reportedUse?_of_kind v kind ((hx.kind?_eq hlt).trans hkind) hcall, hx.plainUse?_eq ht hv,
        hx.lineCol?_eq ht hlt]
      cases huse : t.plainUse? v kind with
      | none => rfl
      | some use =>
        have htarget : use.1 < t.size := ht.listed_plainUse? v kind use.1 (by rw [huse]; rfl)
        cases t.lineCol? v.node with
        | none => rfl
        | some place =>
          simp only [hx.isReportedTarget_eq ht htarget]
          split
          · simp only [Option.map_some, hx.qualifiedName_eq ht htarget]
          · rfl

theorem callEdge?_eq : t'.callEdge? v = t.callEdge? v := by
  rw [callEdge?, callEdge?, hx.kind?_eq (ht.rootPath_lt hv), hx.reportedCall?_eq ht hv,
    hx.caller?_eq ht hv]
  cases hcall : t.reportedCall? v.node with
  | none => rfl
  | some call =>
    cases hcaller : t.caller? v with
    | none => rfl
    | some caller =>
      have hlt := ht.listed_caller? (fun k hk => ht.rootPath_mem_lt hv hk) caller hcaller
      have htarget : call.1 < t.size := ht.reportedCall?_lt hcall
      simp only [hx.qualifiedName_eq ht hlt, hx.qualifiedName_eq ht htarget]

end Visit

theorem visitsBelow_eq (keep keep' : NodeId → Bool) (hkeep : ∀ k, k < t.size → keep' k = keep k)
    (fuel : Nat)
    (path : List NodeId) {id : NodeId} (h : id < t.size) :
    t'.visitsBelow keep' fuel path id = t.visitsBelow keep fuel path id := by
  induction fuel generalizing path id with
  | zero => rw [visitsBelow_zero, visitsBelow_zero]
  | succ fuel ih =>
    rw [visitsBelow_succ, visitsBelow_succ, hkeep id h, hx.children_eq h,
      List.flatMap_congr fun child hc => ih (id :: path) (ht.child_lt hc)]

theorem ownVisits_eq : t'.ownVisits = t.ownVisits := by
  rw [ownVisits, visits, hx.root,
    hx.visitsBelow_eq ht (fun id => !t.inSystemHeader id) (fun id => !t'.inSystemHeader id)
      (fun k hk => by rw [hx.inSystemHeader_eq ht hk]) t'.size [] ht.root_lt]
  exact ht.visitsBelow_root_eq _ hx.size_le

theorem filterMap_ownVisits_eq {α : Type} {f f' : Visit → Option α}
    (h : ∀ v : Visit, t.RootPath v.node v.path → f' v = f v) :
    t'.ownVisits.filterMap f' = t.ownVisits.filterMap f := by
  rw [hx.ownVisits_eq ht]
  apply List.filterMap_congr
  intro v hv
  exact h v ((ht.mem_visits_iff _ v).mp hv).1

theorem extract_eq (file : String) (options : ExtractOptions) :
    t'.extract file options = t.extract file options := by
  have hsymbols : t'.symbolFacts = t.symbolFacts := by
    rw [symbolFacts,
      hx.filterMap_ownVisits_eq ht fun v hv => hx.symbolFact?_eq ht (ht.rootPath_lt hv), symbolFacts]
  have hreferences : t'.referenceFacts = t.referenceFacts :=
    hx.filterMap_ownVisits_eq ht fun v hv => hx.referenceFact?_eq ht hv
  have hedges : t'.callEdges = t.callEdges :=
    hx.filterMap_ownVisits_eq ht fun v hv => hx.callEdge?_eq ht hv
  have hdeps : t'.includeDeps = t.includeDeps := by rw [includeDeps, hx.inclusions, includeDeps]
  rw [extract, hsymbols, hreferences, hedges, hdeps, hx.diagnostics, extract]

end Extends

/-- Every recursion of the extraction ends within the size of the node table and stays in the tables. -/
structure StaysWithin (t : Tree) : Prop where
  /-- The walk meets the nodes that the root reaches, each once. -/
  visits_nodup : (t.allVisits.map (·.node)).Nodup
  visits_iff : ∀ id, id ∈ t.allVisits.map (·.node) ↔ t.Reaches id
  visits_length : t.allVisits.length ≤ t.size
  visit_lt : ∀ v ∈ t.allVisits, v.node < t.size ∧ (∀ k ∈ v.path, k < t.size) ∧ v.path.length < t.size
  /-- No walk, whatever it passes over, is cut by its bound. -/
  walk_whole : ∀ keep fuel, t.size ≤ fuel → t.visitsBelow keep fuel [] t.root = t.visits keep
  search_whole : ∀ v ∈ t.allVisits, ∀ child ∈ t.children v.node, child < t.size ∧
    ∀ depth fuel, t.size ≤ fuel → t.bestBelow fuel depth child = t.bestCandidate? depth child
  /-- Nor is the scope chain of a node that is visited or that some node links to. -/
  scopes_whole : ∀ id, (t.Reaches id ∨ ∃ n ∈ t.nodes.toList, id ∈ n.links) →
    id < t.size ∧ (∀ k ∈ t.scopeChain id, k < t.size) ∧
      ∀ fuel, t.size ≤ fuel → t.ancestry fuel (some id) = t.scopeChain id
  files_lt : ∀ n ∈ t.nodes.toList, ∀ position ∈ n.position, position.file < t.files.length
  /-- No fact depends on what a look-up outside the tables would give, nor on any bound beyond
  their size. -/
  extract_extends : ∀ t', t.Extends t' → ∀ file options, t'.extract file options = t.extract file options

theorem staysWithin_of_check (t : Tree) (h : t.check = .ok ()) : t.StaysWithin := by
  have ht := (t.check_eq_ok_iff).mp h
  have hpath : ∀ v ∈ t.allVisits, t.RootPath v.node v.path := fun v hv => (ht.mem_allVisits_iff v).mp hv
  refine
    { visits_nodup := ht.nodes_visits_nodup _
      visits_iff := ht.mem_nodes_allVisits_iff
      visits_length := ht.length_visits_le _
      visit_lt := ?_
      walk_whole := fun keep fuel hfuel => ht.visitsBelow_root_eq keep hfuel
      search_whole := ?_
      scopes_whole := ?_
      files_lt := ht.files_lt
      extract_extends := fun t' hx file options => hx.extract_eq ht file options }
  · intro v hv
    exact ⟨ht.rootPath_lt (hpath v hv), fun k hk => ht.rootPath_mem_lt (hpath v hv) hk,
      ht.rootPath_length_lt (hpath v hv)⟩
  · intro v hv child hc
    refine ⟨ht.child_lt hc, ?_⟩
    intro depth fuel hfuel
    exact ht.bestBelow_eq fuel t.size depth _ child ((hpath v hv).child hc) (Nat.le_add_right_of_le hfuel)
      (Nat.le_add_right _ _)
  · intro id hid
    have hlt : id < t.size := by
      rcases hid with hreach | ⟨n, hn, hlink⟩
      · obtain ⟨path, hroot⟩ := (t.reaches_iff id).mp hreach
        exact ht.rootPath_lt hroot
      · exact ht.links_lt n hn id hlink
    refine ⟨hlt, ht.mem_ancestry_lt _ (Listed.of_lt hlt), ?_⟩
    intro fuel hfuel
    exact ht.isScoped.ancestry_eq_scopeChain hfuel hlt

/-- A call `f()` in a function `f`, and behind them two nodes that are each other's child. -/
def ringedTree : Tree where
  files := [⟨"main.cpp", true, false⟩]
  root := 0
  nodes := #[
    { kind := .unit, children := [1] },
    { kind := .functionDecl, spelling := "f", position := some ⟨0, 1, 5⟩, lexicalParent := some 0,
      semanticParent := some 0, children := [2], isDefinition := true },
    { kind := .callExpr, position := some ⟨0, 2, 3⟩, lexicalParent := some 1, semanticParent := some 1,
      children := [3] },
    { kind := .declRefExpr, spelling := "f", position := some ⟨0, 2, 3⟩, lexicalParent := some 2,
      semanticParent := some 1, referenced := some 1 },
    { kind := .callExpr, children := [5] },
    { kind := .callExpr, children := [4] }]

theorem staysWithin_of_check_ringedTree : ringedTree.check = .ok () ∧ ringedTree.StaysWithin :=
  ⟨by decide, staysWithin_of_check ringedTree (by decide)⟩

end UnitFacts.Tree
