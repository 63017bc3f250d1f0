import UnitFacts.Proofs.Extract.References
import UnitFacts.Proofs.Facts.Order

/-!
Calls and their callers. A visited call that is reported gives a reference, and besides it an edge if there
is a caller: the innermost ancestor that owns a body, or else the first of the fifty nearest semantic
parents that does, none of those before it being the unit. Neither is lost when the lists are put in order,
so that every edge of the result has its reference there.
-/

namespace UnitFacts.Tree

/-- The semantic parent of a node, or what stands `n` semantic parents further out. -/
def outerScope? (t : Tree) (n : Nat) (id : NodeId) : Option NodeId :=
  (fun scope : Option NodeId => scope.bind t.semanticParent?)^[n] (t.semanticParent? id)

/-- The node that a visited call is made from. -/
inductive CalledFrom (t : Tree) (v : Visit) : NodeId → Prop
  | around {inner outer : List NodeId} {caller : NodeId} : v.path = inner ++ caller :: outer →
      t.kindIn NodeKind.ownsBody caller = true → (∀ id ∈ inner, t.kindIn NodeKind.ownsBody id = false) →
      CalledFrom t v caller
  | scope {n : Nat} {caller : NodeId} : (∀ id ∈ v.path, t.kindIn NodeKind.ownsBody id = false) →
      n < 50 → t.outerScope? n v.node = some caller → t.kindIn NodeKind.ownsBody caller = true →
      (∀ m < n, ∀ id, t.outerScope? m v.node = some id →
        t.isUnit id = false ∧ t.kindIn NodeKind.ownsBody id = false) →
      CalledFrom t v caller

/-- The visited node is a call that reports a reference. -/
structure ReportsCall (t : Tree) (v : Visit) (fact : ReferenceFact) : Prop where
  path : t.RootPath v.node v.path
  kind : t.kind? v.node = some .callExpr
  reports : t.Reports v fact

/-- The calls of a tree give edges and references that belong together. -/
structure CallsAgree (t : Tree) : Prop where
  edge_iff : ∀ v fact, t.ReportsCall v fact → ∀ edge, t.callEdge? v = some edge ↔
    ∃ caller, t.CalledFrom v caller ∧ edge = ⟨t.qualifiedName caller, fact.symbol, fact.line⟩
  caller_unique : ∀ v a b, t.CalledFrom v a → t.CalledFrom v b → a = b
  reference_kept : ∀ v fact, t.ReportsCall v fact → ∀ file options, options.action ≠ .symbols →
    fact.usage = .call ∧ fact ∈ (t.extract file options).references
  edge_kept : ∀ file options, options.action ≠ .symbols → ∀ edge,
    edge ∈ (t.extract file options).callEdges ↔
      ∃ v fact, t.ReportsCall v fact ∧ t.callEdge? v = some edge
  edge_reference : ∀ file options, ∀ edge ∈ (t.extract file options).callEdges,
    ∃ fact ∈ (t.extract file options).references,
      fact.symbol = edge.callee ∧ fact.line = edge.line ∧ fact.usage = .call

variable {t : Tree}

/-! ### The caller -/

theorem getElem?_ancestry (fuel n : Nat) (start : Option NodeId) :
    (t.ancestry fuel start)[n]? =
      if n < fuel then (fun scope : Option NodeId => scope.bind t.semanticParent?)^[n] start else none := by
  induction fuel generalizing n start with
  | zero => rfl
  | succ fuel ih =>
    cases start with
    | none =>
      have hnone : (fun scope : Option NodeId => scope.bind t.semanticParent?)^[n] none = none := by
        induction n with
        | zero => rfl
        | succ n hn => rw [Function.iterate_succ_apply', hn, Option.bind_none]
      simp [ancestry, hnone]
    | some id =>
      cases n with
      | zero => simp [ancestry]
      | succ n => simp [ancestry, ih]

/-- The first item that passes a test, all items before it allowing the search to go on. -/
theorem find?_takeWhile_eq_some_iff {α : Type} {goesOn test : α → Bool} {items : List α} {a : α}
    (hgo : ∀ b, test b = true → goesOn b = true) :
    (items.takeWhile goesOn).find? test = some a ↔
      ∃ n : Nat, items[n]? = some a ∧ test a = true ∧
        ∀ m < n, ∀ b, items[m]? = some b → goesOn b = true ∧ test b = false := by
  induction items with
  | nil => simp
  | cons first rest ih =>
    by_cases htest : test first
    · rw [List.takeWhile_cons_of_pos (hgo first htest), List.find?_cons_of_pos htest]
      constructor
      · rintro ⟨⟩
        exact ⟨0, rfl, htest, nofun⟩
      · rintro ⟨n, hn, -, hbefore⟩
        cases n with
        | zero => exact hn
        | succ n =>
          have hfirst := (hbefore 0 (Nat.succ_pos n) first rfl).2
          rw [htest] at hfirst
          cases hfirst
    · by_cases hfirst : goesOn first
      · rw [List.takeWhile_cons_of_pos hfirst, List.find?_cons_of_neg htest, ih]
        constructor
        · rintro ⟨n, hn, ha, hbefore⟩
          refine ⟨n + 1, hn, ha, fun m hm b hb => ?_⟩
          cases m with
          | zero =>
            cases hb
            exact ⟨hfirst, by simpa using htest⟩
          | succ m => exact hbefore m (Nat.lt_of_succ_lt_succ hm) b hb
        · rintro ⟨n, hn, ha, hbefore⟩
          cases n with
          | zero =>
            cases hn
            exact absurd ha htest
          | succ n => exact ⟨n, hn, ha, fun m hm b hb => hbefore (m + 1) (Nat.succ_lt_succ hm) b hb⟩
      · rw [List.takeWhile_cons_of_neg hfirst]
        simp only [List.find?_nil, reduceCtorEq, false_iff, not_exists, not_and]
        intro n hn ha hbefore
        cases n with
        | zero =>
          cases hn
          exact htest ha
        | succ n => exact hfirst (hbefore 0 (Nat.succ_pos n) first rfl).1

theorem isUnit_eq_false_of_ownsBody {id : NodeId} (h : t.kindIn NodeKind.ownsBody id = true) :
    t.isUnit id = false := by
  unfold isUnit kindIn at *
  cases hkind : t.kind? id with
  | none => rfl
  | some kind =>
    rw [hkind] at h
    cases kind <;> first | rfl | cases h

theorem caller?_eq_some_iff (v : Visit) (caller : NodeId) :
    t.caller? v = some caller ↔ t.CalledFrom v caller := by
  have hscope : ∀ n id, (t.ancestry callerReach (t.semanticParent? v.node))[n]? = some id ↔
      n < 50 ∧ t.outerScope? n v.node = some id := by
    intro n id
    rw [getElem?_ancestry, callerReach, outerScope?]
    by_cases hn : n < 50 <;> simp [hn]
  have hgo : ∀ id, t.kindIn NodeKind.ownsBody id = true → (!t.isUnit id) = true := fun id hid => by
    simp [isUnit_eq_false_of_ownsBody hid]
  rw [caller?, Option.or_eq_some_iff, List.find?_eq_some_iff_append, List.find?_eq_none,
    find?_takeWhile_eq_some_iff hgo]
  constructor
  · rintro (⟨hcaller, inner, outer, hpath, hinner⟩ | ⟨hnone, n, hn, hcaller, hbefore⟩)
    · exact .around hpath hcaller (by simpa using hinner)
    · obtain ⟨hlt, hn⟩ := (hscope n caller).mp hn
      refine .scope (by simpa using hnone) hlt hn hcaller fun m hm id hid => ?_
      simpa using hbefore m hm id ((hscope m id).mpr ⟨Nat.lt_trans hm hlt, hid⟩)
  · intro h
    cases h with
    | @around inner outer _ hpath hcaller hinner =>
      exact Or.inl ⟨hcaller, inner, outer, hpath, by simpa using hinner⟩
    | @scope n _ hnone hlt hn hcaller hbefore =>
      refine Or.inr ⟨by simpa using hnone, n, (hscope n caller).mpr ⟨hlt, hn⟩, hcaller, ?_⟩
      intro m hm id hid
      simpa using hbefore m hm id ((hscope m id).mp hid).2

/-! ### Edges and references -/

theorem kind?_of_callEdge? {v : Visit} {edge : CallEdge} (h : t.callEdge? v = some edge) :
    t.kind? v.node = some .callExpr := by
  rw [callEdge?] at h
  split at h
  · assumption
  · cases h

theorem referenceFact?_of_callExpr {v : Visit} (hkind : t.kind? v.node = some .callExpr) :
    t.referenceFact? v = (t.reportedCall? v.node).map fun call =>
      ⟨t.qualifiedName call.1, call.2.1, call.2.2, .call⟩ := by
  rw [referenceFact?, reportedUse?_of_callExpr hkind, Option.map_map]
  rfl

theorem usage_of_callExpr {v : Visit} {fact : ReferenceFact} (hkind : t.kind? v.node = some .callExpr)
    (h : t.referenceFact? v = some fact) : fact.usage = .call := by
  rw [referenceFact?_of_callExpr hkind] at h
  obtain ⟨call, -, rfl⟩ := Option.map_eq_some_iff.mp h
  rfl

/-- An edge is the reference of the same call with its caller. -/
theorem callEdge?_eq_some_iff {v : Visit} (hkind : t.kind? v.node = some .callExpr) (edge : CallEdge) :
    t.callEdge? v = some edge ↔ ∃ fact caller, t.referenceFact? v = some fact ∧ t.CalledFrom v caller ∧
      edge = ⟨t.qualifiedName caller, fact.symbol, fact.line⟩ := by
  rw [callEdge?, if_pos hkind, referenceFact?_of_callExpr hkind]
  cases hcall : t.reportedCall? v.node with
  | none => simp
  | some call =>
    cases hcaller : t.caller? v with
    | none => simp [← caller?_eq_some_iff, hcaller]
    | some caller => simp [← caller?_eq_some_iff, hcaller, eq_comm]

namespace WellFormed

variable (ht : t.WellFormed)
include ht

theorem reportsCall_iff {v : Visit} {fact : ReferenceFact} :
    t.ReportsCall v fact ↔
      v ∈ t.ownVisits ∧ t.kind? v.node = some .callExpr ∧ t.referenceFact? v = some fact := by
  constructor
  · rintro ⟨hpath, hkind, hreports⟩
    obtain ⟨hv, hfact⟩ := ht.reports_iff.mp ⟨hpath, hreports⟩
    exact ⟨hv, hkind, hfact⟩
  · rintro ⟨hv, hkind, hfact⟩
    obtain ⟨hpath, hreports⟩ := ht.reports_iff.mpr ⟨hv, hfact⟩
    exact ⟨hpath, hkind, hreports⟩

theorem callEdge?_iff_calledFrom {v : Visit} {fact : ReferenceFact} (hcall : t.ReportsCall v fact)
    (edge : CallEdge) :
    t.callEdge? v = some edge ↔
      ∃ caller, t.CalledFrom v caller ∧ edge = ⟨t.qualifiedName caller, fact.symbol, fact.line⟩ := by
  obtain ⟨-, hkind, hfact⟩ := ht.reportsCall_iff.mp hcall
  simp [callEdge?_eq_some_iff hkind, hfact]

theorem usage_of_reportsCall {v : Visit} {fact : ReferenceFact} (hcall : t.ReportsCall v fact) :
    fact.usage = .call := by
  obtain ⟨-, hkind, hfact⟩ := ht.reportsCall_iff.mp hcall
  exact usage_of_callExpr hkind hfact

theorem mem_references_of_reportsCall {v : Visit} {fact : ReferenceFact} (hcall : t.ReportsCall v fact)
    (file : String) {options : ExtractOptions} (h : options.action ≠ .symbols) :
    fact ∈ (t.extract file options).references := by
  obtain ⟨hv, -, hfact⟩ := ht.reportsCall_iff.mp hcall
  rw [references_extract file h, ReferenceFact.mem_tidy_of_call (ht.usage_of_reportsCall hcall)]
  exact List.mem_filterMap.mpr ⟨v, hv, hfact⟩

theorem mem_callEdges_extract_iff (file : String) {options : ExtractOptions} (h : options.action ≠ .symbols)
    (edge : CallEdge) :
    edge ∈ (t.extract file options).callEdges ↔
      ∃ v fact, t.ReportsCall v fact ∧ t.callEdge? v = some edge := by
  rw [callEdges_extract file h, CallEdge.mem_tidy, callEdges, List.mem_filterMap]
  constructor
  · rintro ⟨v, hv, hsome⟩
    have hkind := kind?_of_callEdge? hsome
    obtain ⟨fact, caller, hfact, -⟩ := (callEdge?_eq_some_iff hkind edge).mp hsome
    exact ⟨v, fact, ht.reportsCall_iff.mpr ⟨hv, hkind, hfact⟩, hsome⟩
  · rintro ⟨v, fact, hcall, hsome⟩
    exact ⟨v, (ht.reportsCall_iff.mp hcall).1, hsome⟩

/-- Every reference of the result is reported by a node. -/
theorem exists_reports {file : String} {options : ExtractOptions} {fact : ReferenceFact}
    (hfact : fact ∈ (t.extract file options).references) : ∃ v, t.RootPath v.node v.path ∧ t.Reports v fact := by
  by_cases haction : options.action = .symbols
  · simp [extract, haction, Action.collectsUses] at hfact
  · rw [references_extract file haction] at hfact
    obtain ⟨v, hv, hsome⟩ := List.mem_filterMap.mp ((ReferenceFact.mem_tidy_iff _ _).mp hfact).1
    exact ⟨v, ht.reports_iff.mpr ⟨hv, hsome⟩⟩

/-- Every call edge of the result comes from a call that reports a reference. -/
theorem exists_reportsCall {file : String} {options : ExtractOptions} {edge : CallEdge}
    (hedge : edge ∈ (t.extract file options).callEdges) :
    ∃ v fact, t.ReportsCall v fact ∧ t.callEdge? v = some edge := by
  by_cases haction : options.action = .symbols
  · simp [extract, haction, Action.collectsUses] at hedge
  · exact (ht.mem_callEdges_extract_iff file haction edge).mp hedge

/-- The reference that an edge was made with is in the result beside it. -/
theorem exists_reference_of_callEdge (file : String) (options : ExtractOptions) {edge : CallEdge}
    (hedge : edge ∈ (t.extract file options).callEdges) :
    ∃ fact ∈ (t.extract file options).references,
      fact.symbol = edge.callee ∧ fact.line = edge.line ∧ fact.usage = .call := by
  by_cases haction : options.action = .symbols
  · simp [extract, haction, Action.collectsUses] at hedge
  · obtain ⟨v, fact, hcall, hsome⟩ := (ht.mem_callEdges_extract_iff file haction edge).mp hedge
    obtain ⟨caller, -, rfl⟩ := (ht.callEdge?_iff_calledFrom hcall edge).mp hsome
    exact ⟨fact, ht.mem_references_of_reportsCall hcall file haction, rfl, rfl, ht.usage_of_reportsCall hcall⟩

end WellFormed

/-- In every tree that the check accepts, the edges and the references of calls belong together. -/
theorem callsAgree_of_check (t : Tree) (h : t.check = .ok ()) : t.CallsAgree := by
  have ht := (check_eq_ok_iff t).mp h
  constructor
  · exact fun v fact hcall => ht.callEdge?_iff_calledFrom hcall
  · intro v a b ha hb
    rw [← caller?_eq_some_iff] at ha hb
    exact Option.some.inj (ha.symm.trans hb)
  · intro v fact hcall file options haction
    exact ⟨ht.usage_of_reportsCall hcall, ht.mem_references_of_reportsCall hcall file haction⟩
  · exact fun file options haction => ht.mem_callEdges_extract_iff file haction
  · exact fun file options edge => ht.exists_reference_of_callEdge file options

/-- Calls of a function `f`: in a function `g`, in the initializer of a variable, and in an initializer that
belongs to `g` although it stands elsewhere. -/
def initializingTree : Tree where
  files := [⟨"main.cpp", true, false⟩]
  root := 0
  nodes := #[
    { kind := .unit, children := [1, 2, 4, 6] },
    { kind := .functionDecl, spelling := "f", position := some ⟨0, 1, 5⟩, semanticParent := some 0 },
    { kind := .functionDecl, spelling := "g", position := some ⟨0, 2, 5⟩, semanticParent := some 0,
      children := [3] },
    { kind := .callExpr, position := some ⟨0, 2, 11⟩, semanticParent := some 2, referenced := some 1 },
    { kind := .varDecl, spelling := "x", position := some ⟨0, 3, 5⟩, semanticParent := some 0,
      children := [5] },
    { kind := .callExpr, position := some ⟨0, 3, 9⟩, semanticParent := some 0, referenced := some 1 },
    { kind := .varDecl, spelling := "y", position := some ⟨0, 4, 5⟩, semanticParent := some 2,
      children := [7] },
    { kind := .callExpr, position := some ⟨0, 4, 9⟩, semanticParent := some 6, referenced := some 1 }]

theorem callsAgree_of_check_initializingTree :
    initializingTree.check = .ok () ∧
      initializingTree.referenceFacts = [⟨"f", 2, 11, .call⟩, ⟨"f", 3, 9, .call⟩, ⟨"f", 4, 9, .call⟩] ∧
      initializingTree.callEdges = [⟨"g", "f", 2⟩, ⟨"g", "f", 4⟩] ∧ initializingTree.CallsAgree :=
  ⟨by decide, by decide, by decide, callsAgree_of_check initializingTree (by decide)⟩

end UnitFacts.Tree
