import UnitFacts.Proofs.Extract.Extension
import UnitFacts.Proofs.Tree.Standing

/-!
Uses of declarations that stand for the same callable. A tree without the links of its uses still has all
that the extraction reads of declarations, scopes and places. So when some uses are redirected, each to a
declaration that is reported against the same callable, the facts of the tree stay as they are.
-/

namespace UnitFacts

/-- The node, but with no link to a declaration that it uses. -/
def Node.withoutUse (n : Node) : Node := { n with referenced := none }

namespace Tree

/-- The tree without the links of its uses. -/
def withoutUses (t : Tree) : Tree := { t with nodes := t.nodes.map Node.withoutUse }

/-- `t'` is `t` but for uses, names of types aside, that lead to another declaration of the same callable. -/
structure RedirectsTo (t t' : Tree) : Prop where
  same : t'.withoutUses = t.withoutUses
  uses : ∀ use, t'.referenced? use = t.referenced? use ∨
    t.kind? use ≠ some .typeRef ∧ ∃ a b target, t.referenced? use = some a ∧ t'.referenced? use = some b ∧
      t.callableFor? a = some target ∧ t.callableFor? b = some target

/-! ### What does not depend on uses -/

section WithoutUses

variable (t : Tree)

theorem node?_withoutUses (id : NodeId) : t.withoutUses.node? id = (t.node? id).map Node.withoutUse := by
  simp [node?, withoutUses]

/-- Setting the link of a use changes nothing else. -/
theorem withoutUses_setReferenced (use target : NodeId) :
    (t.setReferenced use target).withoutUses = t.withoutUses := by
  refine eq_of_node?_eq (fun id => ?_) rfl
  rw [node?_withoutUses, node?_withoutUses, setReferenced, map_node?_modify]
  intro n
  rfl

@[simp] theorem size_withoutUses : t.withoutUses.size = t.size := by simp [size, withoutUses]

/-- Look-ups of one part of a node, uses aside. -/
theorem map_node?_withoutUses {α : Type} (part : Node → α) (h : ∀ n, part n.withoutUse = part n) (id : NodeId) :
    (t.withoutUses.node? id).map part = (t.node? id).map part := by
  rw [node?_withoutUses, Option.map_map]
  cases t.node? id <;> simp [h]

@[simp] theorem kind?_withoutUses : t.withoutUses.kind? = t.kind? :=
  funext fun id => t.map_node?_withoutUses _ (fun _ => rfl) id

@[simp] theorem spelling_withoutUses : t.withoutUses.spelling = t.spelling := by
  funext id
  rw [spelling, t.map_node?_withoutUses (·.spelling) fun _ => rfl, spelling]

@[simp] theorem children_withoutUses : t.withoutUses.children = t.children := by
  funext id
  rw [children, t.map_node?_withoutUses (·.children) fun _ => rfl, children]

@[simp] theorem tokens_withoutUses : t.withoutUses.tokens = t.tokens := by
  funext id
  rw [tokens, t.map_node?_withoutUses (·.tokens) fun _ => rfl, tokens]

@[simp] theorem endLine_withoutUses : t.withoutUses.endLine = t.endLine := by
  funext id
  rw [endLine, t.map_node?_withoutUses (·.endLine) fun _ => rfl, endLine]

/-- Look-ups of a link of a node, uses aside. -/
theorem bind_node?_withoutUses {α : Type} (part : Node → Option α) (h : ∀ n, part n.withoutUse = part n)
    (id : NodeId) : (t.withoutUses.node? id).bind part = (t.node? id).bind part := by
  rw [node?_withoutUses, Option.bind_map]
  cases t.node? id <;> simp [h]

@[simp] theorem semanticParent?_withoutUses : t.withoutUses.semanticParent? = t.semanticParent? :=
  funext fun id => t.bind_node?_withoutUses _ (fun _ => rfl) id

@[simp] theorem canonical?_withoutUses : t.withoutUses.canonical? = t.canonical? :=
  funext fun id => t.bind_node?_withoutUses _ (fun _ => rfl) id

@[simp] theorem definition?_withoutUses : t.withoutUses.definition? = t.definition? :=
  funext fun id => t.bind_node?_withoutUses _ (fun _ => rfl) id

@[simp] theorem location?_withoutUses : t.withoutUses.location? = t.location? := by
  funext id
  rw [location?, node?_withoutUses, location?]
  cases t.node? id <;> rfl

@[simp] theorem isDefinition_withoutUses : t.withoutUses.isDefinition = t.isDefinition := by
  funext id
  rw [isDefinition, node?_withoutUses, isDefinition]
  cases t.node? id <;> rfl

@[simp] theorem kindIn_withoutUses : t.withoutUses.kindIn = t.kindIn := by
  funext group id
  rw [kindIn, kind?_withoutUses, kindIn]

@[simp] theorem isUnit_withoutUses : t.withoutUses.isUnit = t.isUnit := by
  funext id
  rw [isUnit, kindIn_withoutUses, isUnit]

@[simp] theorem inSystemHeader_withoutUses : t.withoutUses.inSystemHeader = t.inSystemHeader := by
  funext id
  rw [inSystemHeader, location?_withoutUses, inSystemHeader]

@[simp] theorem lineCol?_withoutUses : t.withoutUses.lineCol? = t.lineCol? := by
  funext id
  rw [lineCol?, location?_withoutUses, lineCol?]

@[simp] theorem ancestry_withoutUses : t.withoutUses.ancestry = t.ancestry := by
  funext fuel id?
  induction fuel generalizing id? with
  | zero => simp
  | succ fuel ih =>
    cases id? with
    | none => simp
    | some id => rw [ancestry_succ, ancestry_succ, semanticParent?_withoutUses, ih]

@[simp] theorem qualifiedName_withoutUses : t.withoutUses.qualifiedName = t.qualifiedName := by
  funext id
  simp [qualifiedName, nameSegments, innerScopes, scopeChain]

@[simp] theorem isLocal_withoutUses : t.withoutUses.isLocal = t.isLocal := by
  funext id
  simp [isLocal]

@[simp] theorem symbolFact?_withoutUses : t.withoutUses.symbolFact? = t.symbolFact? := by
  funext id
  simp [symbolFact?, symbolVerdict]

@[simp] theorem callableOnly_withoutUses : t.withoutUses.callableOnly = t.callableOnly := by
  funext id?
  simp [callableOnly]

@[simp] theorem callableFor?_withoutUses : t.withoutUses.callableFor? = t.callableFor? := by
  funext decl
  simp [callableFor?]

@[simp] theorem calleeChild?_withoutUses : t.withoutUses.calleeChild? = t.calleeChild? := by
  funext call
  simp [calleeChild?]

@[simp] theorem access_withoutUses : t.withoutUses.access = t.access := by
  funext v
  simp [access, accessAt?]

@[simp] theorem isUnderCallee_withoutUses : t.withoutUses.isUnderCallee = t.isUnderCallee := by
  funext v
  simp [isUnderCallee]

@[simp] theorem isReportedTarget_withoutUses : t.withoutUses.isReportedTarget = t.isReportedTarget := by
  funext decl
  simp [isReportedTarget]

@[simp] theorem caller?_withoutUses : t.withoutUses.caller? = t.caller? := by
  funext v
  simp [caller?]

@[simp] theorem visitsBelow_withoutUses : t.withoutUses.visitsBelow = t.visitsBelow := by
  funext keep fuel path id
  induction fuel generalizing path id with
  | zero => rfl
  | succ fuel ih => simp only [visitsBelow_succ, children_withoutUses, ih]

@[simp] theorem ownVisits_withoutUses : t.withoutUses.ownVisits = t.ownVisits := by
  simp only [ownVisits, visits, visitsBelow_withoutUses, inSystemHeader_withoutUses, size_withoutUses]
  rfl

end WithoutUses

namespace RedirectsTo

variable {t t' : Tree} (h : t.RedirectsTo t')
include h

/-- What does not depend on uses is the same in both trees. -/
theorem eq_of_withoutUses {α : Type} {part : Tree → α} (hpart : ∀ t, part t.withoutUses = part t) :
    part t' = part t := by
  rw [← hpart t', h.same, hpart t]

theorem callableFor?_eq : t'.callableFor? = t.callableFor? := h.eq_of_withoutUses callableFor?_withoutUses

theorem bind_callableFor?_eq (use : NodeId) :
    (t'.referenced? use).bind t'.callableFor? = (t.referenced? use).bind t.callableFor? := by
  rw [h.callableFor?_eq]
  rcases h.uses use with heq | ⟨-, a, b, target, ha, hb, hatarget, hbtarget⟩
  · rw [heq]
  · rw [ha, hb, Option.bind_some, Option.bind_some, hatarget, hbtarget]

theorem ownCandidate?_eq (depth : Int) (id : NodeId) : t'.ownCandidate? depth id = t.ownCandidate? depth id := by
  have hown : t'.ownCallable? id = t.ownCallable? id := by
    rw [ownCallable?, h.bind_callableFor?_eq, h.callableFor?_eq, h.eq_of_withoutUses kindIn_withoutUses,
      ownCallable?]
  rw [ownCandidate?, hown, h.eq_of_withoutUses kind?_withoutUses, ownCandidate?]

theorem bestBelow_eq (fuel : Nat) (depth : Int) (id : NodeId) :
    t'.bestBelow fuel depth id = t.bestBelow fuel depth id := by
  induction fuel generalizing depth id with
  | zero => rfl
  | succ fuel ih =>
    rw [bestBelow, bestBelow, h.ownCandidate?_eq, h.eq_of_withoutUses children_withoutUses]
    apply List.foldl_ext
    intro best child _
    rw [ih]

theorem callTarget?_eq (call : NodeId) : t'.callTarget? call = t.callTarget? call := by
  have hbest : t'.bestCandidate? 0 = t.bestCandidate? 0 := by
    funext id
    rw [bestCandidate?, h.bestBelow_eq, h.eq_of_withoutUses size_withoutUses, bestCandidate?]
  rw [callTarget?, h.bind_callableFor?_eq, h.eq_of_withoutUses calleeChild?_withoutUses, hbest, callTarget?]

theorem reportedCall?_eq (id : NodeId) : t'.reportedCall? id = t.reportedCall? id := by
  rw [reportedCall?, h.callTarget?_eq, h.eq_of_withoutUses lineCol?_withoutUses,
    h.eq_of_withoutUses inSystemHeader_withoutUses, reportedCall?]

theorem plainUse?_eq (v : Visit) {kind : NodeKind} (hkind : t.kind? v.node = some kind) :
    t'.plainUse? v kind = t.plainUse? v kind := by
  have haccess : t'.access = t.access := h.eq_of_withoutUses access_withoutUses
  rw [plainUse?, plainUse?, h.eq_of_withoutUses isUnderCallee_withoutUses, haccess, useTarget?, useTarget?,
    h.callableFor?_eq]
  rcases h.uses v.node with heq | ⟨htype, a, b, target, ha, hb, hatarget, hbtarget⟩
  · rw [heq]
  · have hne : kind ≠ .typeRef := by
      rintro rfl
      exact htype hkind
    rw [if_neg hne, if_neg hne, ha, hb]
    simp only [Option.map_some, hatarget, hbtarget, Option.getD_some]

theorem reportedUse?_eq (v : Visit) : t'.reportedUse? v = t.reportedUse? v := by
  have hkinds : t'.kind? = t.kind? := h.eq_of_withoutUses kind?_withoutUses
  cases hkind : t.kind? v.node with
  | none => rw [reportedUse?, reportedUse?, hkinds, hkind]
  | some kind =>
    by_cases hcall : kind = .callExpr
    · subst hcall
      rw [reportedUse?, reportedUse?, hkinds, hkind, h.reportedCall?_eq]
    · rw [reportedUse?_of_kind t v kind hkind hcall, reportedUse?_of_kind t' v kind (hkinds ▸ hkind) hcall,
        h.plainUse?_eq v hkind, h.eq_of_withoutUses lineCol?_withoutUses,
        h.eq_of_withoutUses isReportedTarget_withoutUses]

theorem referenceFact?_eq : t'.referenceFact? = t.referenceFact? := by
  funext v
  rw [referenceFact?, h.reportedUse?_eq, h.eq_of_withoutUses qualifiedName_withoutUses, referenceFact?]

theorem callEdge?_eq : t'.callEdge? = t.callEdge? := by
  funext v
  rw [callEdge?, h.eq_of_withoutUses kind?_withoutUses, h.reportedCall?_eq,
    h.eq_of_withoutUses caller?_withoutUses, h.eq_of_withoutUses qualifiedName_withoutUses, callEdge?]

/-- Which of several declarations of one callable a use leads to does not matter for the facts. -/
theorem extract_eq (file : String) (options : ExtractOptions) :
    t'.extract file options = t.extract file options := by
  have hvisits : t'.ownVisits = t.ownVisits := h.eq_of_withoutUses ownVisits_withoutUses
  have hsymbols : t'.symbolFacts = t.symbolFacts := by
    rw [symbolFacts, hvisits, h.eq_of_withoutUses symbolFact?_withoutUses, symbolFacts]
  have hreferences : t'.referenceFacts = t.referenceFacts := by
    rw [referenceFacts, hvisits, h.referenceFact?_eq, referenceFacts]
  have hedges : t'.callEdges = t.callEdges := by
    rw [callEdges, hvisits, h.callEdge?_eq, callEdges]
  have hdeps : t'.includeDeps = t.includeDeps := h.eq_of_withoutUses fun _ => rfl
  have hdiagnostics : t'.diagnostics = t.diagnostics := h.eq_of_withoutUses fun _ => rfl
  rw [extract, hsymbols, hreferences, hedges, hdeps, hdiagnostics, extract]

end RedirectsTo

end Tree

end UnitFacts
