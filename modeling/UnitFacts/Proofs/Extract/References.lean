import UnitFacts.Proofs.Extract.CalleeSearch
import UnitFacts.Proofs.Extract.Extension

/-!
What the raw references of a tree are. A visited node reports at most one of them: a call the declaration
it invokes, a type name the type, and any other name, unless it stands in the callee of the call around
it, the declaration it leads to, with the way it is accessed. What is reported has a place and a name that
other units can see, and the list has the reports of the nodes outside system headers in pre-order.
-/

namespace UnitFacts

theorem Action.collectsUses_iff (action : Action) : action.collectsUses = true ↔ action ≠ .symbols := by
  cases action <;> simp [collectsUses]

namespace Tree

def position? (t : Tree) (id : NodeId) : Option Position := (t.node? id).bind (·.position)

/-- A declaration outside system headers that is neither a parameter nor a variable of a body. -/
structure IsNonlocal (t : Tree) (decl : NodeId) : Prop where
  own : t.inSystemHeader decl = false
  not_parameter : t.kind? decl ≠ some .parmDecl
  not_local : t.kind? decl = some .varDecl → ∀ scope, t.semanticParent? decl = some scope →
    t.kindIn NodeKind.ownsBody scope = false

def nearestCall? (t : Tree) (v : Visit) : Option NodeId :=
  v.path.find? fun id => decide (t.kind? id = some .callExpr)

/-- The visited node lies in the subtree of the callee child of the nearest call around it. -/
def InCallee (t : Tree) (v : Visit) : Prop :=
  ∃ call callee, t.nearestCall? v = some call ∧ t.calleeChild? call = some callee ∧ t.Below callee v.node

/-- The visited node uses a declaration that may be reported. -/
inductive Uses (t : Tree) (v : Visit) : NodeId → Usage → Prop
  | call {target : NodeId} : t.kind? v.node = some .callExpr → t.callTarget? v.node = some target →
      t.inSystemHeader target = false → Uses t v target .call
  | typeRef {target : NodeId} : t.kind? v.node = some .typeRef → t.referenced? v.node = some target →
      t.IsNonlocal target → Uses t v target .typeRef
  | name {kind : NodeKind} {target : NodeId} : t.kind? v.node = some kind → kind.isNameUse = true →
      ¬ t.InCallee v → t.useTarget? v.node = some target → t.IsNonlocal target →
      Uses t v target (t.access v)

/-- The visited node reports a fact. -/
structure Reports (t : Tree) (v : Visit) (fact : ReferenceFact) : Prop where
  own : ∀ id ∈ v.node :: v.path, t.inSystemHeader id = false
  use : ∃ target, t.Uses v target fact.usage ∧ fact.symbol = t.qualifiedName target
  place : ∃ position, t.position? v.node = some position ∧ 0 < position.line ∧
    fact.line = position.line ∧ fact.col = position.col

/-- The raw references of a tree are, in pre-order and node by node, the facts that the nodes below its root
report. A fact has a line and is about a nonlocal declaration. -/
structure ReferencesExact (t : Tree) : Prop where
  order : t.Preorder [] [t.root] t.allVisits
  reports : ∃ visits, visits.Sublist t.allVisits ∧
    (∀ v, v ∈ visits ↔ t.RootPath v.node v.path ∧ ∃ fact, t.Reports v fact) ∧
    List.Forall₂ t.Reports visits t.referenceFacts
  unique : ∀ v fact other, t.RootPath v.node v.path → t.Reports v fact → t.Reports v other → fact = other
  nonlocal : ∀ fact ∈ t.referenceFacts, 0 < fact.line ∧
    ∃ target, fact.symbol = t.qualifiedName target ∧ t.IsNonlocal target
  reported : ∀ file options, options.action ≠ .symbols →
    (t.extract file options).references = ReferenceFact.tidy t.referenceFacts

variable {t : Tree}

theorem references_extract (file : String) {options : ExtractOptions} (h : options.action ≠ .symbols) :
    (t.extract file options).references = ReferenceFact.tidy t.referenceFacts :=
  if_pos ((Action.collectsUses_iff _).mpr h)

theorem callEdges_extract (file : String) {options : ExtractOptions} (h : options.action ≠ .symbols) :
    (t.extract file options).callEdges = CallEdge.tidy t.callEdges :=
  if_pos ((Action.collectsUses_iff _).mpr h)

/-! ### Targets -/

theorem isReportedTarget_iff (decl : NodeId) : t.isReportedTarget decl = true ↔ t.IsNonlocal decl := by
  have hlocal : t.isLocal decl = false ↔
      ∀ scope, t.semanticParent? decl = some scope → t.kindIn NodeKind.ownsBody scope = false := by
    simp [isLocal, Option.any_eq_false]
  unfold isReportedTarget
  constructor
  · intro h
    obtain ⟨hown, hkind⟩ := Bool.and_eq_true_iff.mp h
    refine ⟨by simpa using hown, ?_, ?_⟩
    · intro hparm
      simp [hparm] at hkind
    · intro hvar
      simpa [hvar, hlocal] using hkind
  · rintro ⟨hown, hparm, hvar⟩
    rw [hown, Bool.not_false, Bool.true_and]
    split
    · contradiction
    · rename_i hkind
      simpa [hlocal] using hvar hkind
    · rfl

theorem isNonlocal_of_isCallable {decl : NodeId} (hown : t.inSystemHeader decl = false)
    (h : t.kindIn NodeKind.isCallable decl = true) : t.IsNonlocal decl := by
  constructor
  · exact hown
  · intro hparm
    simp [kindIn, hparm, NodeKind.isCallable] at h
  · intro hvar
    simp [kindIn, hvar, NodeKind.isCallable] at h

theorem Uses.isNonlocal {v : Visit} {target : NodeId} {usage : Usage} (h : t.Uses v target usage) :
    t.IsNonlocal target := by
  cases h with
  | call _ htarget hown => exact isNonlocal_of_isCallable hown (kindIn_of_callTarget? htarget)
  | typeRef _ _ hnonlocal => exact hnonlocal
  | name _ _ _ _ hnonlocal => exact hnonlocal

/-! ### The callee around a node -/

theorem calleeChild?_mem {call callee : NodeId} (h : t.calleeChild? call = some callee) :
    callee ∈ t.children call := by
  rcases Option.or_eq_some_iff.mp h with hfound | ⟨-, hfirst⟩
  · exact List.mem_of_find?_eq_some hfound
  · exact List.mem_of_mem_head? hfirst

/-- The innermost ancestor that passes a test begins the first step whose ancestor does. -/
theorem find?_path_eq_steps (v : Visit) (test : NodeId → Bool) :
    v.path.find? test = (v.steps.find? fun step => test step.1).map (·.1) := by
  have hpath : v.steps.map (·.1) = v.path := List.map_fst_zip (by simp)
  nth_rewrite 1 [← hpath]
  rw [List.find?_map]
  rfl

theorem nearestCall?_eq_find?_steps (v : Visit) :
    t.nearestCall? v = (v.steps.find? fun step => decide (t.kind? step.1 = some .callExpr)).map (·.1) :=
  find?_path_eq_steps v _

/-- Each step of a visit goes from an ancestor to its child on the way to the node. -/
theorem RootPath.of_mem_steps {id : NodeId} {path : List NodeId} (h : t.RootPath id path)
    {step : NodeId × NodeId} (hstep : step ∈ Visit.steps ⟨id, path⟩) :
    step.2 ∈ t.children step.1 ∧ t.Below step.2 id := by
  induction h generalizing step with
  | root => cases hstep
  | @child parent child path _ hchild ih =>
    rcases List.mem_cons.mp hstep with rfl | hstep
    · exact ⟨hchild, Relation.ReflTransGen.refl⟩
    · obtain ⟨hmem, hbelow⟩ := ih hstep
      exact ⟨hmem, hbelow.tail hchild⟩

/-! ### What a node reports -/

theorem reportedCall?_eq_some_iff (id target : NodeId) (line col : UInt32) :
    t.reportedCall? id = some (target, line, col) ↔
      (t.callTarget? id = some target ∧ t.inSystemHeader target = false) ∧ t.lineCol? id = some (line, col) := by
  rw [reportedCall?]
  split
  · rename_i found line' col' htarget hplace
    rw [htarget, hplace]
    by_cases hown : t.inSystemHeader found
    · simp only [hown, if_true, reduceCtorEq, false_iff]
      rintro ⟨⟨hfound, hnot⟩, -⟩
      cases hfound
      rw [hown] at hnot
      cases hnot
    · simp only [hown, Bool.false_eq_true, if_false, Option.some.injEq, Prod.mk.injEq]
      constructor
      · rintro ⟨rfl, rfl, rfl⟩
        exact ⟨⟨rfl, by simpa using hown⟩, rfl, rfl⟩
      · rintro ⟨⟨rfl, -⟩, rfl, rfl⟩
        exact ⟨rfl, rfl, rfl⟩
  · rename_i hnone
    simp only [reduceCtorEq, false_iff]
    rintro ⟨⟨htarget, -⟩, hplace⟩
    exact hnone target line col htarget hplace

theorem uses_iff_of_callExpr {v : Visit} (hkind : t.kind? v.node = some .callExpr) (target : NodeId)
    (usage : Usage) :
    t.Uses v target usage ↔
      usage = .call ∧ t.callTarget? v.node = some target ∧ t.inSystemHeader target = false := by
  constructor
  · intro huse
    cases huse with
    | call _ htarget hown => exact ⟨rfl, htarget, hown⟩
    | typeRef htype => cases hkind.symm.trans htype
    | name hother hname =>
      cases hkind.symm.trans hother
      cases hname
  · rintro ⟨rfl, htarget, hown⟩
    exact .call hkind htarget hown

theorem reportedUse?_of_callExpr {v : Visit} (hkind : t.kind? v.node = some .callExpr) :
    t.reportedUse? v = (t.reportedCall? v.node).map fun call => (call.1, .call, call.2.1, call.2.2) := by
  rw [reportedUse?, hkind]

theorem reportedUse?_eq_some_iff_of_ne_callExpr {v : Visit} {kind : NodeKind} (hkind : t.kind? v.node = some kind)
    (hne : kind ≠ .callExpr) (target : NodeId) (usage : Usage) (line col : UInt32) :
    t.reportedUse? v = some (target, usage, line, col) ↔
      (t.plainUse? v kind = some (target, usage) ∧ t.IsNonlocal target) ∧
        t.lineCol? v.node = some (line, col) := by
  rw [reportedUse?_of_kind t v kind hkind hne]
  cases hplain : t.plainUse? v kind with
  | none => simp
  | some use =>
    cases hplace : t.lineCol? v.node with
    | none => simp
    | some place =>
      obtain ⟨found, how⟩ := use
      simp only [← isReportedTarget_iff]
      constructor
      · intro h
        split at h
        · cases h
          exact ⟨⟨rfl, ‹_›⟩, rfl⟩
        · cases h
      · rintro ⟨⟨heq, hreported⟩, hat⟩
        cases heq
        cases hat
        rw [if_pos hreported]

namespace WellFormed

variable (ht : t.WellFormed)
include ht

/-- Of the children of an ancestor, the one on the way to the node is the one that has the node in its
subtree. -/
theorem below_iff_of_mem_steps {v : Visit} (hv : t.RootPath v.node v.path) {step : NodeId × NodeId}
    (hstep : step ∈ v.steps) {child : NodeId} (hchild : child ∈ t.children step.1) :
    t.Below child v.node ↔ child = step.2 := by
  obtain ⟨hway, hbelow⟩ := hv.of_mem_steps hstep
  obtain ⟨above, habove, -⟩ := hv.of_mem (List.of_mem_zip hstep).1
  constructor
  · intro hnode
    exact ht.child_unique habove hchild hway hnode hbelow
  · intro heq
    exact heq ▸ hbelow

theorem isUnderCallee_iff {v : Visit} (hv : t.RootPath v.node v.path) :
    t.isUnderCallee v = true ↔ t.InCallee v := by
  rw [isUnderCallee_eq_any, InCallee, nearestCall?_eq_find?_steps]
  cases hfind : v.steps.find? fun step => decide (t.kind? step.1 = some .callExpr) with
  | none => simp
  | some step =>
    have hway := fun callee (hcallee : t.calleeChild? step.1 = some callee) =>
      ht.below_iff_of_mem_steps hv (List.mem_of_find?_eq_some hfind) (calleeChild?_mem hcallee)
    rw [Option.any_some, Option.map_some, decide_eq_true_iff]
    constructor
    · intro hcallee
      exact ⟨step.1, step.2, rfl, hcallee, (hway step.2 hcallee).mpr rfl⟩
    · rintro ⟨call, callee, hcall, hcallee, hnode⟩
      cases hcall
      rw [hcallee, (hway callee hcallee).mp hnode]

theorem lineCol?_eq_some_iff (id : NodeId) (line col : UInt32) :
    t.lineCol? id = some (line, col) ↔
      ∃ position, t.position? id = some position ∧ 0 < position.line ∧ line = position.line ∧
        col = position.col := by
  cases hn : t.node? id with
  | none => simp [lineCol?, location?, position?, hn]
  | some n =>
    cases hposition : n.position with
    | none => simp [lineCol?, location?, position?, hn, hposition]
    | some position =>
      have hfile := ht.files_lt n ((t.mem_nodes_iff n).mpr ⟨id, hn⟩) position hposition
      simp only [lineCol?, location?, position?, hn, hposition, List.getElem?_eq_getElem hfile,
        Option.bind_some, Option.bind_eq_bind, Option.pure_def]
      by_cases hline : 0 < position.line <;> simp [hline, eq_comm]

theorem uses_iff_of_ne_callExpr {v : Visit} (hv : t.RootPath v.node v.path) {kind : NodeKind}
    (hkind : t.kind? v.node = some kind) (hne : kind ≠ .callExpr) (target : NodeId) (usage : Usage) :
    t.Uses v target usage ↔ t.plainUse? v kind = some (target, usage) ∧ t.IsNonlocal target := by
  have hcallee := ht.isUnderCallee_iff hv
  constructor
  · intro huse
    cases huse with
    | call hcall => exact absurd (Option.some.inj (hkind.symm.trans hcall)) hne
    | typeRef htype htarget hnonlocal =>
      cases hkind.symm.trans htype
      exact ⟨by simp [plainUse?, htarget], hnonlocal⟩
    | @name other _ hother hname hout htarget hnonlocal =>
      cases hkind.symm.trans hother
      have hnot : kind ≠ .typeRef := by
        rintro rfl
        cases hname
      refine ⟨?_, hnonlocal⟩
      have hcond : (kind.isNameUse && !t.isUnderCallee v) = true := by simp [hname, mt hcallee.mp hout]
      rw [plainUse?, if_neg hnot, if_pos hcond, htarget, Option.map_some]
  · rintro ⟨huse, hnonlocal⟩
    rw [plainUse?] at huse
    split at huse
    · rename_i htype
      obtain ⟨decl, hdecl, heq⟩ := Option.map_eq_some_iff.mp huse
      cases heq
      exact .typeRef (htype ▸ hkind) hdecl hnonlocal
    · split at huse
      · rename_i hname
        obtain ⟨decl, hdecl, heq⟩ := Option.map_eq_some_iff.mp huse
        cases heq
        obtain ⟨hname, hout⟩ := Bool.and_eq_true_iff.mp hname
        exact .name hkind hname (mt hcallee.mpr (by simpa using hout)) hdecl hnonlocal
      · cases huse

/-- What the extraction finds at a node that the root reaches is what the node uses, with its place. -/
theorem reportedUse?_eq_some_iff {v : Visit} (hv : t.RootPath v.node v.path) (target : NodeId) (usage : Usage)
    (line col : UInt32) :
    t.reportedUse? v = some (target, usage, line, col) ↔
      t.Uses v target usage ∧ t.lineCol? v.node = some (line, col) := by
  cases hkind : t.kind? v.node with
  | none =>
    have hno : ¬ t.Uses v target usage := by
      intro huse
      cases huse <;> simp_all
    simp [reportedUse?, hkind, hno]
  | some kind =>
    by_cases hcall : kind = .callExpr
    · subst hcall
      rw [reportedUse?_of_callExpr hkind, uses_iff_of_callExpr hkind, Option.map_eq_some_iff]
      constructor
      · rintro ⟨⟨found, line', col'⟩, hfound, heq⟩
        cases heq
        obtain ⟨htarget, hplace⟩ := (reportedCall?_eq_some_iff _ _ _ _).mp hfound
        exact ⟨⟨rfl, htarget⟩, hplace⟩
      · rintro ⟨⟨rfl, htarget⟩, hplace⟩
        exact ⟨(target, line, col), (reportedCall?_eq_some_iff _ _ _ _).mpr ⟨htarget, hplace⟩, rfl⟩
    · rw [reportedUse?_eq_some_iff_of_ne_callExpr hkind hcall, ht.uses_iff_of_ne_callExpr hv hkind hcall]

theorem referenceFact?_eq_some_iff {v : Visit} (hv : t.RootPath v.node v.path) (fact : ReferenceFact) :
    t.referenceFact? v = some fact ↔
      (∃ target, t.Uses v target fact.usage ∧ fact.symbol = t.qualifiedName target) ∧
        ∃ position, t.position? v.node = some position ∧ 0 < position.line ∧ fact.line = position.line ∧
          fact.col = position.col := by
  rw [referenceFact?, Option.map_eq_some_iff, ← ht.lineCol?_eq_some_iff]
  constructor
  · rintro ⟨⟨target, usage, line, col⟩, hreported, rfl⟩
    obtain ⟨huse, hplace⟩ := (ht.reportedUse?_eq_some_iff hv target usage line col).mp hreported
    exact ⟨⟨target, huse, rfl⟩, hplace⟩
  · rintro ⟨⟨target, huse, hsymbol⟩, hplace⟩
    refine ⟨(target, fact.usage, fact.line, fact.col), ?_, ?_⟩
    · exact (ht.reportedUse?_eq_some_iff hv target fact.usage fact.line fact.col).mpr ⟨huse, hplace⟩
    · simp only [← hsymbol]

/-- The walk past system headers goes to the nodes with no system header on their path. -/
theorem mem_ownVisits_iff (v : Visit) :
    v ∈ t.ownVisits ↔ t.RootPath v.node v.path ∧ ∀ id ∈ v.node :: v.path, t.inSystemHeader id = false := by
  simp [ownVisits, ht.mem_visits_iff]

theorem reports_iff {v : Visit} {fact : ReferenceFact} :
    t.RootPath v.node v.path ∧ t.Reports v fact ↔ v ∈ t.ownVisits ∧ t.referenceFact? v = some fact := by
  rw [ht.mem_ownVisits_iff]
  constructor
  · rintro ⟨hv, hown, huse, hplace⟩
    exact ⟨⟨hv, hown⟩, (ht.referenceFact?_eq_some_iff hv fact).mpr ⟨huse, hplace⟩⟩
  · rintro ⟨⟨hv, hown⟩, hfact⟩
    obtain ⟨huse, hplace⟩ := (ht.referenceFact?_eq_some_iff hv fact).mp hfact
    exact ⟨hv, hown, huse, hplace⟩

theorem reports_unique {v : Visit} {fact other : ReferenceFact} (hv : t.RootPath v.node v.path)
    (h : t.Reports v fact) (h' : t.Reports v other) : fact = other := by
  obtain ⟨-, hfact⟩ := ht.reports_iff.mp ⟨hv, h⟩
  obtain ⟨-, hother⟩ := ht.reports_iff.mp ⟨hv, h'⟩
  exact Option.some.inj (hfact.symm.trans hother)

end WellFormed

/-- The results of a partial function on a list belong, one by one, to the items that have one. -/
theorem forall₂_filterMap {α β : Type} {r : α → β → Prop} {f : α → Option β} {items : List α}
    (h : ∀ item ∈ items, ∀ result, f item = some result → r item result) :
    List.Forall₂ r (items.filter fun item => (f item).isSome) (items.filterMap f) := by
  induction items with
  | nil => exact .nil
  | cons item rest ih =>
    have hrest := ih fun later hlater => h later (List.mem_cons_of_mem item hlater)
    cases hitem : f item with
    | none => simpa [hitem] using hrest
    | some result => simpa [hitem] using ⟨h item List.mem_cons_self result hitem, hrest⟩

/-- The raw references of every tree that the check accepts are those its nodes report. -/
theorem referencesExact_of_check (t : Tree) (h : t.check = .ok ()) : t.ReferencesExact := by
  have ht := (check_eq_ok_iff t).mp h
  refine ⟨ht.preorder_allVisits, ?_, fun v fact other => ht.reports_unique, ?_, ?_⟩
  · refine ⟨t.ownVisits.filter fun v => (t.referenceFact? v).isSome, ?_, ?_, ?_⟩
    · rw [ownVisits, visits_eq_filter]
      exact List.filter_sublist.trans List.filter_sublist
    · intro v
      simp only [List.mem_filter, Option.isSome_iff_exists, ← exists_and_left, ← ht.reports_iff]
    · exact forall₂_filterMap fun v hv fact hfact => (ht.reports_iff.mpr ⟨hv, hfact⟩).2
  · intro fact hfact
    obtain ⟨v, hv, hsome⟩ := List.mem_filterMap.mp hfact
    obtain ⟨-, hreports⟩ := ht.reports_iff.mpr ⟨hv, hsome⟩
    obtain ⟨target, huse, hsymbol⟩ := hreports.use
    obtain ⟨position, -, hline, heq, -⟩ := hreports.place
    exact ⟨heq ▸ hline, target, hsymbol, huse.isNonlocal⟩
  · exact fun file options haction => references_extract file haction

/-- A call `g(x = p)` in a function with the parameter `p`, and a call in a header of the system. -/
def assigningTree : Tree where
  files := [⟨"main.cpp", true, false⟩, ⟨"/usr/include/h.h", false, true⟩]
  root := 0
  nodes := #[
    { kind := .unit, children := [1, 2, 3, 4] },
    { kind := .functionDecl, spelling := "g", position := some ⟨0, 1, 6⟩, semanticParent := some 0 },
    { kind := .varDecl, spelling := "x", position := some ⟨0, 2, 5⟩, semanticParent := some 0 },
    { kind := .functionDecl, spelling := "f", position := some ⟨0, 3, 6⟩, semanticParent := some 0,
      children := [5, 6] },
    { kind := .functionDecl, spelling := "h", position := some ⟨1, 1, 6⟩, semanticParent := some 0,
      children := [12] },
    { kind := .parmDecl, spelling := "p", position := some ⟨0, 3, 12⟩, semanticParent := some 3 },
    { kind := .compoundStmt, children := [7] },
    { kind := .callExpr, position := some ⟨0, 4, 3⟩, children := [8, 9] },
    { kind := .declRefExpr, spelling := "g", position := some ⟨0, 4, 3⟩, referenced := some 1 },
    { kind := .binaryOperator, position := some ⟨0, 4, 5⟩, children := [10, 11], tokens := ["x", "=", "p"] },
    { kind := .declRefExpr, spelling := "x", position := some ⟨0, 4, 5⟩, referenced := some 2 },
    { kind := .declRefExpr, spelling := "p", position := some ⟨0, 4, 9⟩, referenced := some 5 },
    { kind := .callExpr, position := some ⟨0, 9, 9⟩, referenced := some 1 }]

theorem referencesExact_of_check_assigningTree :
    assigningTree.check = .ok () ∧
      assigningTree.referenceFacts = [⟨"g", 4, 3, .call⟩, ⟨"x", 4, 5, .write⟩] ∧
      assigningTree.ReferencesExact :=
  ⟨by decide, by decide, referencesExact_of_check assigningTree (by decide)⟩

end Tree

end UnitFacts
