import UnitFacts.Extract
import UnitFacts.Proofs.Facts.Order

/-!
One walk for all families of facts. A run goes through the tree once and adds to what it has gathered,
symbols and uses alike, as far as its action asks for them. What is gathered for one family never depends on
whether the other is: what an action gathers is what the run for everything gathers, cut down to the
families of the action. The lists of an extraction are those of such a run, put in order.
-/

namespace UnitFacts

/-- What a run has gathered so far, in the order in which it was met, and the keys of the symbols in it. -/
structure Gathered where
  seen : List (String × SymbolKind × UInt32) := []
  symbols : List SymbolFact := []
  references : List ReferenceFact := []
  callEdges : List CallEdge := []

namespace Gathered

/-- Adds a symbol whose key was not seen before. -/
def addSymbol (g : Gathered) (fact : SymbolFact) : Gathered :=
  if fact.key ∈ g.seen then g
  else { g with seen := fact.key :: g.seen, symbols := g.symbols ++ [fact] }

def addSymbol? (g : Gathered) (fact? : Option SymbolFact) : Gathered := fact?.elim g g.addSymbol

def addUses (g : Gathered) (reference? : Option ReferenceFact) (edge? : Option CallEdge) : Gathered :=
  { g with references := g.references ++ reference?.toList, callEdges := g.callEdges ++ edge?.toList }

/-- The families of facts that an action asks for. -/
def only (action : Action) (g : Gathered) : Gathered where
  seen := if action.collectsSymbols then g.seen else []
  symbols := if action.collectsSymbols then g.symbols else []
  references := if action.collectsUses then g.references else []
  callEdges := if action.collectsUses then g.callEdges else []

end Gathered

namespace Tree

/-- What a run has gathered after one more visit. -/
def gatherAt (t : Tree) (action : Action) (g : Gathered) (v : Visit) : Gathered :=
  let g := if action.collectsSymbols then g.addSymbol? (t.symbolFact? v.node) else g
  if action.collectsUses then g.addUses (t.referenceFact? v) (t.callEdge? v) else g

/-- What a run has gathered after a node and all below it, to a depth of `fuel`; a node in a system header
hides its subtree. -/
def gatherBelow (t : Tree) (action : Action) : Nat → List NodeId → Gathered → NodeId → Gathered
  | 0, _, g, _ => g
  | fuel + 1, path, g, id =>
    if t.inSystemHeader id then g
    else (t.children id).foldl (gatherBelow t action fuel (id :: path)) (t.gatherAt action g ⟨id, path⟩)

/-- What a run gathers on its walk from the root. -/
def gather (t : Tree) (action : Action) : Gathered := t.gatherBelow action t.size [] {} t.root

/-- The result that is made of what a run gathered. -/
def report (t : Tree) (file : String) (options : ExtractOptions) (g : Gathered) : Extraction where
  file := Path.normalise file
  symbols := g.symbols
  references := ReferenceFact.tidy g.references
  callEdges := CallEdge.tidy g.callEdges
  includeDeps := IncludeDep.tidy t.includeDeps
  success := true
  diagnostics := (t.diagnostics.filter fun d => options.keeps d.severity).map (·.message)

/-- The actions are projections of one another: each gathers on its walk what the walk for everything
gathers of its families, and nothing else in the results depends on the action. -/
structure ActionsProject (t : Tree) : Prop where
  gathered : ∀ file options, t.extract file options = t.report file options (t.gather options.action)
  projected : ∀ action, t.gather action = (t.gather .everything).only action
  symbols : ∀ file warnings,
    (t.extract file ⟨.everything, warnings⟩).symbols = (t.extract file ⟨.symbols, warnings⟩).symbols
  uses : ∀ file warnings,
    (t.extract file ⟨.everything, warnings⟩).references = (t.extract file ⟨.uses, warnings⟩).references ∧
      (t.extract file ⟨.everything, warnings⟩).callEdges = (t.extract file ⟨.uses, warnings⟩).callEdges
  no_uses : ∀ file warnings, (t.extract file ⟨.symbols, warnings⟩).references = [] ∧
    (t.extract file ⟨.symbols, warnings⟩).callEdges = []
  no_symbols : ∀ file warnings, (t.extract file ⟨.uses, warnings⟩).symbols = []
  rest : ∀ file warnings action other,
    (t.extract file ⟨action, warnings⟩).file = (t.extract file ⟨other, warnings⟩).file ∧
      (t.extract file ⟨action, warnings⟩).includeDeps = (t.extract file ⟨other, warnings⟩).includeDeps ∧
      (t.extract file ⟨action, warnings⟩).diagnostics = (t.extract file ⟨other, warnings⟩).diagnostics ∧
      (t.extract file ⟨action, warnings⟩).success = (t.extract file ⟨other, warnings⟩).success

variable (t : Tree)

/-! ### Families -/

theorem only_addSymbol? (action : Action) (h : action.collectsSymbols = true) (g : Gathered)
    (fact? : Option SymbolFact) : (g.addSymbol? fact?).only action = (g.only action).addSymbol? fact? := by
  cases fact? with
  | none => rfl
  | some fact =>
    by_cases hseen : fact.key ∈ g.seen <;>
      simp [Gathered.addSymbol?, Gathered.addSymbol, Gathered.only, h, hseen]

theorem only_addSymbol?_of_not (action : Action) (h : action.collectsSymbols = false) (g : Gathered)
    (fact? : Option SymbolFact) : (g.addSymbol? fact?).only action = g.only action := by
  cases fact? with
  | none => rfl
  | some fact =>
    by_cases hseen : fact.key ∈ g.seen <;>
      simp [Gathered.addSymbol?, Gathered.addSymbol, Gathered.only, h, hseen]

theorem only_addUses (action : Action) (g : Gathered) (reference? : Option ReferenceFact)
    (edge? : Option CallEdge) :
    (g.addUses reference? edge?).only action =
      if action.collectsUses then (g.only action).addUses reference? edge? else g.only action := by
  cases h : action.collectsUses <;> simp [Gathered.addUses, Gathered.only, h]

/-- A visit adds to a family what it would add if that family were the only one. -/
theorem only_gatherAt (action : Action) (g : Gathered) (v : Visit) :
    (t.gatherAt .everything g v).only action = t.gatherAt action (g.only action) v := by
  have hboth : t.gatherAt .everything g v =
      (g.addSymbol? (t.symbolFact? v.node)).addUses (t.referenceFact? v) (t.callEdge? v) := rfl
  rw [hboth, only_addUses, gatherAt]
  cases h : action.collectsSymbols with
  | true => simp only [if_true, only_addSymbol? action h]
  | false => simp only [Bool.false_eq_true, if_false, only_addSymbol?_of_not action h]

theorem only_gatherBelow (action : Action) (fuel : Nat) (path : List NodeId) (g : Gathered) (id : NodeId) :
    (t.gatherBelow .everything fuel path g id).only action =
      t.gatherBelow action fuel path (g.only action) id := by
  induction fuel generalizing path g id with
  | zero => rfl
  | succ fuel ih =>
    simp only [gatherBelow]
    split
    · rfl
    · rw [← only_gatherAt]
      generalize t.gatherAt .everything g ⟨id, path⟩ = here
      induction t.children id generalizing here with
      | nil => rfl
      | cons child rest ihRest => rw [List.foldl_cons, List.foldl_cons, ihRest, ih]

theorem gather_eq_only (action : Action) : t.gather action = (t.gather .everything).only action := by
  have hempty : Gathered.only action {} = {} := by cases action <;> rfl
  rw [gather, gather, only_gatherBelow, hempty]

/-! ### The walk -/

/-- A run that carries along what it has gathered goes through the visits of the walk one by one. -/
theorem gatherBelow_eq_foldl (action : Action) (fuel : Nat) (path : List NodeId) (g : Gathered)
    (id : NodeId) :
    t.gatherBelow action fuel path g id =
      (t.visitsBelow (fun id => !t.inSystemHeader id) fuel path id).foldl (t.gatherAt action) g := by
  induction fuel generalizing path g id with
  | zero => rfl
  | succ fuel ih =>
    rw [gatherBelow, visitsBelow]
    by_cases hsystem : t.inSystemHeader id
    · simp [hsystem]
    · simp only [hsystem, Bool.not_false, Bool.false_eq_true, if_false, if_true, List.foldl_cons,
        List.foldl_flatMap]
      congr 1
      funext g child
      exact ih (id :: path) g child

theorem gather_eq_foldl (action : Action) :
    t.gather action = t.ownVisits.foldl (t.gatherAt action) {} :=
  t.gatherBelow_eq_foldl action t.size [] {} t.root

/-- The symbols after some visits: those there were, and of the new ones the first of each new key. -/
theorem symbols_foldl_gatherAt (visits : List Visit) (g : Gathered) :
    (visits.foldl (t.gatherAt .everything) g).symbols =
      g.symbols ++ firstByKey SymbolFact.key g.seen (visits.filterMap fun v => t.symbolFact? v.node) := by
  induction visits generalizing g with
  | nil => simp [firstByKey]
  | cons v rest ih =>
    rw [List.foldl_cons, ih, List.filterMap_cons]
    cases hfact : t.symbolFact? v.node with
    | none => simp [gatherAt, Action.collectsSymbols, Action.collectsUses, Gathered.addUses, hfact,
        Gathered.addSymbol?]
    | some fact =>
      by_cases hseen : fact.key ∈ g.seen <;>
        simp [gatherAt, Action.collectsSymbols, Action.collectsUses, Gathered.addUses, hfact,
          Gathered.addSymbol?, Gathered.addSymbol, firstByKey, hseen]

theorem gatherAt_everything_uses (g : Gathered) (v : Visit) :
    (t.gatherAt .everything g v).references = g.references ++ (t.referenceFact? v).toList ∧
      (t.gatherAt .everything g v).callEdges = g.callEdges ++ (t.callEdge? v).toList := by
  have hsame : (g.addSymbol? (t.symbolFact? v.node)).references = g.references ∧
      (g.addSymbol? (t.symbolFact? v.node)).callEdges = g.callEdges := by
    cases t.symbolFact? v.node with
    | none => exact ⟨rfl, rfl⟩
    | some fact =>
      simp only [Gathered.addSymbol?, Option.elim_some, Gathered.addSymbol]
      split <;> exact ⟨rfl, rfl⟩
  simp [gatherAt, Action.collectsSymbols, Action.collectsUses, Gathered.addUses, hsame]

theorem uses_foldl_gatherAt (visits : List Visit) (g : Gathered) :
    (visits.foldl (t.gatherAt .everything) g).references =
        g.references ++ visits.filterMap t.referenceFact? ∧
      (visits.foldl (t.gatherAt .everything) g).callEdges =
        g.callEdges ++ visits.filterMap t.callEdge? := by
  induction visits generalizing g with
  | nil => simp
  | cons v rest ih =>
    obtain ⟨href, hedge⟩ := t.gatherAt_everything_uses g v
    rw [List.foldl_cons, (ih _).1, (ih _).2, href, hedge, List.filterMap_cons, List.filterMap_cons]
    cases t.referenceFact? v <;> cases t.callEdge? v <;> simp

/-- The run for everything gathers the facts of the tree. -/
theorem gather_everything :
    (t.gather .everything).symbols = t.symbolFacts ∧ (t.gather .everything).references = t.referenceFacts ∧
      (t.gather .everything).callEdges = t.callEdges := by
  obtain ⟨href, hedge⟩ := t.uses_foldl_gatherAt t.ownVisits {}
  rw [gather_eq_foldl]
  refine ⟨?_, href, hedge⟩
  rw [symbols_foldl_gatherAt]
  rfl

theorem extract_eq_report (file : String) (options : ExtractOptions) :
    t.extract file options = t.report file options (t.gather options.action) := by
  obtain ⟨hsymbols, href, hedge⟩ := t.gather_everything
  rw [gather_eq_only, extract, report, Gathered.only, hsymbols, href, hedge]
  congr 1
  · split <;> simp
  · split <;> simp

/-- In every tree the actions are projections of one another. -/
theorem actionsProject (t : Tree) : t.ActionsProject := by
  have hcut : ∀ file options, t.extract file options =
      t.report file options ((t.gather .everything).only options.action) := by
    intro file options
    rw [← gather_eq_only, extract_eq_report]
  constructor
  · exact t.extract_eq_report
  · exact t.gather_eq_only
  · intro file warnings
    rw [hcut, hcut]
    rfl
  · intro file warnings
    rw [hcut, hcut]
    exact ⟨rfl, rfl⟩
  · intro file warnings
    rw [hcut]
    exact ⟨ReferenceFact.tidy_nil, CallEdge.tidy_nil⟩
  · intro file warnings
    rw [hcut]
    rfl
  · intro file warnings action other
    rw [hcut, hcut file ⟨other, warnings⟩]
    exact ⟨rfl, rfl, rfl, rfl⟩

end Tree

end UnitFacts
