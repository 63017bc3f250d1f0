import UnitFacts.Proofs.Extract.References
import UnitFacts.Proofs.Tree.QualifiedName
import UnitFacts.Proofs.Unique

/-!
What the symbols of a tree are. A node outside system headers whose kind and standing make it worth reporting
gives one fact if it has a place. The facts stand in pre-order, and of those with the same name, kind and line
only the first stays, so that every key of a reported node is there exactly once.
-/

namespace UnitFacts

theorem Action.collectsSymbols_iff (action : Action) : action.collectsSymbols = true ↔ action ≠ .uses := by
  cases action <;> simp [collectsSymbols]

namespace Tree

/-- The visited node reports a symbol. -/
structure ReportsSymbol (t : Tree) (v : Visit) (fact : SymbolFact) : Prop where
  own : ∀ id ∈ v.node :: v.path, t.inSystemHeader id = false
  verdict : t.symbolVerdict v.node = .report fact.kind
  place : ∃ position, t.position? v.node = some position ∧ 0 < position.line ∧
    fact.line = position.line ∧ fact.col = position.col
  name : fact.name = t.spelling v.node
  qualifiedName : fact.qualifiedName = t.qualifiedName v.node
  endLine : fact.endLine = t.endLine v.node

/-- The symbols are, in pre-order, the first facts of their key among those that the nodes below the root
report. -/
structure SymbolsExact (t : Tree) (symbols : List SymbolFact) : Prop where
  order : t.Preorder [] [t.root] t.allVisits
  reports : ∃ visits facts, visits.Sublist t.allVisits ∧
    (∀ v, v ∈ visits ↔ t.RootPath v.node v.path ∧ ∃ fact, t.ReportsSymbol v fact) ∧
    List.Forall₂ t.ReportsSymbol visits facts ∧ symbols = firstOfEach SymbolFact.key facts
  unique : ∀ v fact other, t.ReportsSymbol v fact → t.ReportsSymbol v other → fact = other
  key_once : ∀ v fact, t.RootPath v.node v.path → t.ReportsSymbol v fact →
    (symbols.map SymbolFact.key).count fact.key = 1
  no_other : ∀ fact ∈ symbols, ∃ v, t.RootPath v.node v.path ∧ t.ReportsSymbol v fact
  named : ∀ fact ∈ symbols, 0 < fact.line ∧ fact.qualifiedName ≠ ""

variable {t : Tree}

theorem symbols_extract (file : String) {options : ExtractOptions} (h : options.action ≠ .uses) :
    (t.extract file options).symbols = t.symbolFacts :=
  if_pos ((Action.collectsSymbols_iff _).mpr h)

/-! ### What a node reports -/

theorem symbolFact?_eq_some_iff (id : NodeId) (fact : SymbolFact) :
    t.symbolFact? id = some fact ↔
      t.symbolVerdict id = .report fact.kind ∧ t.lineCol? id = some (fact.line, fact.col) ∧
        fact.name = t.spelling id ∧ fact.qualifiedName = t.qualifiedName id ∧ fact.endLine = t.endLine id := by
  rw [symbolFact?]
  constructor
  · intro h
    split at h
    · rename_i kind line col hverdict hplace
      cases h
      exact ⟨hverdict, hplace, rfl, rfl, rfl⟩
    · cases h
  · intro h
    obtain ⟨hverdict, hplace, hname, hqualified, hend⟩ := h
    rw [hverdict, hplace]
    simp only [← hname, ← hqualified, ← hend]

theorem ReportsSymbol.unique {v : Visit} {fact other : SymbolFact} (h : t.ReportsSymbol v fact)
    (h' : t.ReportsSymbol v other) : fact = other := by
  obtain ⟨position, hposition, -, hline, hcol⟩ := h.place
  obtain ⟨position', hposition', -, hline', hcol'⟩ := h'.place
  obtain rfl : position = position' := Option.some.inj (hposition.symm.trans hposition')
  have hkind : fact.kind = other.kind := by
    have hverdict := h.verdict.symm.trans h'.verdict
    injection hverdict
  have hname := h.name.trans h'.name.symm
  have hqualified := h.qualifiedName.trans h'.qualifiedName.symm
  have hend := h.endLine.trans h'.endLine.symm
  obtain ⟨name, qualifiedName, kind, line, col, endLine⟩ := fact
  obtain ⟨name', qualifiedName', kind', line', col', endLine'⟩ := other
  simp_all only

theorem ReportsSymbol.line_pos {v : Visit} {fact : SymbolFact} (h : t.ReportsSymbol v fact) :
    0 < fact.line := by
  obtain ⟨position, -, hpos, hline, -⟩ := h.place
  exact hline ▸ hpos

/-- A node below the root reports what the walk past system headers finds at it. -/
theorem WellFormed.reportsSymbol_iff (ht : t.WellFormed) {v : Visit} {fact : SymbolFact} :
    t.RootPath v.node v.path ∧ t.ReportsSymbol v fact ↔ v ∈ t.ownVisits ∧ t.symbolFact? v.node = some fact := by
  rw [ht.mem_ownVisits_iff, symbolFact?_eq_some_iff, ht.lineCol?_eq_some_iff]
  constructor
  · intro h
    obtain ⟨hv, hreports⟩ := h
    exact ⟨⟨hv, hreports.own⟩, hreports.verdict, hreports.place, hreports.name, hreports.qualifiedName,
      hreports.endLine⟩
  · intro h
    obtain ⟨⟨hv, hown⟩, hverdict, hplace, hname, hqualified, hend⟩ := h
    exact ⟨hv, hown, hverdict, hplace, hname, hqualified, hend⟩

/-- Every symbol of the result is reported by a node. -/
theorem WellFormed.exists_reportsSymbol (ht : t.WellFormed) {file : String} {options : ExtractOptions}
    {fact : SymbolFact} (hfact : fact ∈ (t.extract file options).symbols) :
    ∃ v, t.RootPath v.node v.path ∧ t.ReportsSymbol v fact := by
  by_cases haction : options.action = .uses
  · simp [extract, haction, Action.collectsSymbols] at hfact
  · rw [symbols_extract file haction] at hfact
    obtain ⟨v, hv, hsome⟩ := List.mem_filterMap.mp (mem_of_mem_firstByKey _ _ _ hfact)
    exact ⟨v, ht.reportsSymbol_iff.mpr ⟨hv, hsome⟩⟩

/-- The symbols of every tree that the check accepts are the first facts of their keys that its nodes
report. -/
theorem symbolsExact_of_check (t : Tree) (h : t.check = .ok ()) (file : String) (options : ExtractOptions)
    (haction : options.action ≠ .uses) : t.SymbolsExact (t.extract file options).symbols := by
  have ht := (check_eq_ok_iff t).mp h
  have hsource : ∀ fact ∈ t.symbolFacts, ∃ v, t.RootPath v.node v.path ∧ t.ReportsSymbol v fact := by
    intro fact hfact
    obtain ⟨v, hv, hsome⟩ := List.mem_filterMap.mp (mem_of_mem_firstByKey _ _ _ hfact)
    exact ⟨v, ht.reportsSymbol_iff.mpr ⟨hv, hsome⟩⟩
  rw [symbols_extract file haction]
  refine ⟨ht.preorder_allVisits, ?_, fun v fact other => ReportsSymbol.unique, ?_, hsource, ?_⟩
  · refine ⟨t.ownVisits.filter fun v => (t.symbolFact? v.node).isSome, _, ?_, ?_,
      forall₂_filterMap fun v hv fact hfact => (ht.reportsSymbol_iff.mpr ⟨hv, hfact⟩).2,
      firstByKey_eq_firstOfEach _ _⟩
    · rw [ownVisits, visits_eq_filter]
      exact List.filter_sublist.trans List.filter_sublist
    · intro v
      simp only [List.mem_filter, Option.isSome_iff_exists, ← exists_and_left, ← ht.reportsSymbol_iff]
  · intro v fact hv hreports
    obtain ⟨hown, hsome⟩ := ht.reportsSymbol_iff.mp ⟨hv, hreports⟩
    have hkey : fact.key ∈ (t.ownVisits.filterMap fun v => t.symbolFact? v.node).map SymbolFact.key :=
      List.mem_map_of_mem (List.mem_filterMap.mpr ⟨v, hown, hsome⟩)
    apply List.count_eq_one_of_mem
    · exact (nodup_map_firstByKey _ _ _).1
    · exact (mem_map_firstByKey _ _ _ _).mpr ⟨hkey, List.not_mem_nil⟩
  · intro fact hfact
    obtain ⟨v, -, hreports⟩ := hsource fact hfact
    exact ⟨hreports.line_pos, hreports.qualifiedName ▸ qualifiedName_ne_empty t v.node⟩

/-- A class `C` declared before it is defined, with a method that is listed twice and has a local variable, an
unnamed namespace with a variable in it, and a function of a system header. -/
def declaringTree : Tree where
  files := [⟨"main.cpp", true, false⟩, ⟨"/usr/include/h.h", false, true⟩]
  root := 0
  nodes := #[
    { kind := .unit, children := [1, 2, 6, 8] },
    { kind := .classDecl, spelling := "C", position := some ⟨0, 1, 7⟩, semanticParent := some 0 },
    { kind := .classDecl, spelling := "C", position := some ⟨0, 2, 7⟩, endLine := 4, semanticParent := some 0,
      children := [3, 5], isDefinition := true },
    { kind := .cxxMethod, spelling := "m", position := some ⟨0, 3, 8⟩, endLine := 3, semanticParent := some 2,
      children := [4] },
    { kind := .varDecl, spelling := "x", position := some ⟨0, 3, 18⟩, semanticParent := some 3 },
    { kind := .cxxMethod, spelling := "m", position := some ⟨0, 3, 30⟩, endLine := 3, semanticParent := some 2 },
    { kind := .namespaceDecl, position := some ⟨0, 5, 1⟩, semanticParent := some 0, children := [7] },
    { kind := .varDecl, spelling := "y", position := some ⟨0, 6, 5⟩, endLine := 6, semanticParent := some 6 },
    { kind := .functionDecl, spelling := "h", position := some ⟨1, 1, 6⟩, semanticParent := some 0 }]

theorem symbolsExact_of_check_declaringTree :
    declaringTree.check = .ok () ∧ (Action.symbols ≠ .uses) ∧
      (declaringTree.extract "main.cpp" { action := .symbols }).symbols =
        [⟨"C", "C", .classDecl, 2, 7, 4⟩, ⟨"m", "C::m", .method, 3, 8, 3⟩,
          ⟨"y", "y", .varDecl, 6, 5, 6⟩] ∧
      declaringTree.SymbolsExact (declaringTree.extract "main.cpp" { action := .symbols }).symbols :=
  ⟨by decide, by decide, by decide,
    symbolsExact_of_check declaringTree (by decide) "main.cpp" { action := .symbols } (by decide)⟩

end Tree

end UnitFacts
