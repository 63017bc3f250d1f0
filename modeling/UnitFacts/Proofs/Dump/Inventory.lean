import UnitFacts.Proofs.Dump.Outline
import UnitFacts.Proofs.Tree.Label

/-!
The inventory of a document: all objects that are read into nodes, in document order, each with its node.
Nodes are numbered as their objects come, the unit first. These objects are

* every declaration and template that is more than a mention,
* every expression and statement that is neither hidden nor begins in a system header,
* the pattern of a template that merges, whose node is that of the template.

An object keeps the names of the scopes around it, outermost first and without empty ones. A declaration that
opens a scope adds its name to those of its contents, and so does a template that merges, whose pattern adds
none; what follows the pattern stands in the scope of the template. Nothing else adds a name.
-/

namespace UnitFacts.Dump

open UnitFacts.Tree (addName)

/-- What an object is read as. -/
inductive Role where
  | unit
  | declaration
  | template
  /-- The pattern of a template that merges. -/
  | pattern
  | statement
  deriving DecidableEq, Repr

/-- An object that is read into a node. `scopes` are the names of the scopes around it, `cursor` stands before
its locations. -/
structure Entry where
  role : Role
  attrs : Attrs
  node : NodeId
  kind : NodeKind
  loose : Bool
  scopes : List String
  cursor : LocCursor
  deriving DecidableEq, Repr

/-- How far a document has been read: the cursor, and the node that the next object gets. -/
structure Front where
  cursor : LocCursor
  next : NodeId

def Draft.front (d : Draft) : Front := ⟨d.cursor, d.tree.nextId⟩

mutual

/-- The objects at and inside an object, and how far the document has then been read. `around` is the kind of
the node that new nodes go below, and `hidden` says whether they are loose. -/
def inventory (ctx : Context) (around : NodeKind) (hidden : Bool) (scopes : List String) :
    Node → Front → List Entry × Front
  | .mk attrs inner, front =>
    match attrs.plan with
    | .skim => ([], ⟨skimAll inner (front.cursor.afterAttrs attrs), front.next⟩)
    | .dissolve => inventoryAll ctx around hidden scopes inner ⟨front.cursor.afterAttrs attrs, front.next⟩
    | .template kind merges =>
      if attrs.isMention then ([], front)
      else
        let loose := hidden || attrs.isImplicit
        let inside := inventoryTemplate ctx around kind merges front.next loose scopes
          (if merges then addName scopes attrs.name else scopes) inner
          ⟨front.cursor.afterAttrs attrs, front.next + 1⟩
        (⟨.template, attrs, front.next, kind, loose, scopes, front.cursor⟩ :: inside.1, inside.2)
    | .declaration kind =>
      if attrs.isMention then ([], front)
      else
        let loose := hidden || attrs.isImplicit || (attrs.cls = "CXXRecordDecl" && around = .lambdaExpr)
        let inside := inventoryAll ctx kind loose
          (if opensScope kind then addName scopes attrs.name else scopes) inner
          ⟨front.cursor.afterAttrs attrs, front.next + 1⟩
        (⟨.declaration, attrs, front.next, kind, loose, scopes, front.cursor⟩ :: inside.1, inside.2)
    | .statement kind =>
      if hidden || beginsInSystem ctx (front.cursor.rangeFirst attrs) then
        ([], ⟨skimAll inner (front.cursor.afterRange attrs), front.next⟩)
      else
        let inside := inventoryAll ctx kind false scopes inner ⟨front.cursor.afterRange attrs, front.next + 1⟩
        (⟨.statement, attrs, front.next, kind, false, scopes, front.cursor⟩ :: inside.1, inside.2)

/-- The objects of a row of objects. -/
def inventoryAll (ctx : Context) (around : NodeKind) (hidden : Bool) (scopes : List String) :
    List Node → Front → List Entry × Front
  | [], front => ([], front)
  | node :: rest, front =>
    let first := inventory ctx around hidden scopes node front
    let others := inventoryAll ctx around hidden scopes rest first.2
    (first.1 ++ others.1, others.2)

/-- The objects inside a template with the node `template`. Up to the pattern they stand in the scopes `own`, and
then beside the template, in the scopes `scopes`. -/
def inventoryTemplate (ctx : Context) (around kind : NodeKind) (merges : Bool) (template : NodeId) (loose : Bool)
    (scopes own : List String) : List Node → Front → List Entry × Front
  | [], front => ([], front)
  | .mk attrs inner :: rest, front =>
    if isPattern kind attrs.cls then
      let pattern :=
        if !merges then inventory ctx kind loose own (.mk attrs inner) front
        else if attrs.isMention then ([], front)
        else
          let inside := inventoryAll ctx kind loose own inner ⟨front.cursor.afterAttrs attrs, front.next⟩
          (⟨.pattern, attrs, template, kind, loose, scopes, front.cursor⟩ :: inside.1, inside.2)
      let others := inventoryAll ctx around true scopes rest pattern.2
      (pattern.1 ++ others.1, others.2)
    else
      let first := inventory ctx kind loose own (.mk attrs inner) front
      let others := inventoryTemplate ctx around kind merges template loose scopes own rest first.2
      (first.1 ++ others.1, others.2)

end

/-- The objects of a unit, itself included. -/
def unitInventory (ctx : Context) (attrs : Attrs) (inner : List Node) : List Entry :=
  ⟨.unit, attrs, 0, .unit, false, [], {}⟩ ::
    (inventoryAll ctx .unit false [] inner ⟨LocCursor.afterAttrs {} attrs, 1⟩).1

namespace Entry

/-- Whether the object has a node of its own. -/
def isNew (e : Entry) : Bool := e.role ≠ .pattern

/-- Whether the object is a declaration or a template. -/
def declares (e : Entry) : Bool := e.role = .declaration || e.role = .template

/-- The spelling of the node of an object other than the unit. -/
def spelling (e : Entry) : String :=
  if e.role = .statement then statementSpelling e.kind e.attrs else e.attrs.name

/-- The tokens of the node of an object. -/
def tokens (ctx : Context) (e : Entry) : List String :=
  if e.role = .statement && isOperator e.kind then
    operatorTokens ctx e.attrs (e.cursor.rangeFirst e.attrs) (e.cursor.rangeLast e.attrs)
  else []

/-! ### What is noted of an object -/

def id? (e : Entry) : Option (String × NodeId) := e.attrs.id.map fun name => (name, e.node)

/-- The node with the id that it refers to. -/
def reference? (e : Entry) : Option (NodeId × String) :=
  if e.role = .statement then (linkTarget? e.attrs).map fun target => (e.node, target) else none

def construct? (e : Entry) : Option Construct :=
  if e.role = .statement then Dump.construct? e.attrs e.node else none

/-- The node of a constructor with the type that it is written with. -/
def ctorType? (e : Entry) : Option (NodeId × String) :=
  if e.role = .declaration && e.kind = .constructor then e.attrs.qualType.map fun type => (e.node, type) else none

/-- The node with the id of the earlier declaration that it names. -/
def previous? (e : Entry) : Option (NodeId × String) :=
  if e.role = .unit || e.role = .statement then none else e.attrs.previousDecl.map fun name => (e.node, name)

/-- The node with the id of the scope that it names. -/
def context? (e : Entry) : Option (NodeId × String) :=
  if e.role = .unit || e.role = .statement then none else e.attrs.parentContext.map fun name => (e.node, name)

/-- The stretch of source in which the object writes its type. -/
def mention? (ctx : Context) (e : Entry) : Option Mention :=
  if e.role = .declaration && !e.loose then
    Dump.mention? ctx e.attrs e.kind e.node (e.cursor.firstOf e.attrs) (e.cursor.locOf e.attrs)
      (e.cursor.lastOf e.attrs)
  else none

end Entry

section Equations

variable (ctx : Context) (around : NodeKind) (hidden : Bool) (scopes : List String) (attrs : Attrs)
  (inner : List Node) (front : Front)

theorem inventory_skim (h : attrs.plan = .skim) :
    inventory ctx around hidden scopes (.mk attrs inner) front =
      ([], ⟨skimAll inner (front.cursor.afterAttrs attrs), front.next⟩) := by
  rw [inventory]
  simp only [h]

theorem inventory_dissolve (h : attrs.plan = .dissolve) :
    inventory ctx around hidden scopes (.mk attrs inner) front =
      inventoryAll ctx around hidden scopes inner ⟨front.cursor.afterAttrs attrs, front.next⟩ := by
  rw [inventory]
  simp only [h]

theorem inventory_mention (h : attrs.isMention = true)
    (hplan : (∃ kind merges, attrs.plan = .template kind merges) ∨ ∃ kind, attrs.plan = .declaration kind) :
    inventory ctx around hidden scopes (.mk attrs inner) front = ([], front) := by
  rw [inventory]
  rcases hplan with ⟨kind, merges, hplan⟩ | ⟨kind, hplan⟩ <;> simp only [hplan, h, if_true]

theorem inventory_template {kind : NodeKind} {merges : Bool} (h : attrs.plan = .template kind merges)
    (hm : attrs.isMention = false) :
    inventory ctx around hidden scopes (.mk attrs inner) front =
      let inside := inventoryTemplate ctx around kind merges front.next (hidden || attrs.isImplicit) scopes
        (if merges then addName scopes attrs.name else scopes) inner
        ⟨front.cursor.afterAttrs attrs, front.next + 1⟩
      (⟨.template, attrs, front.next, kind, hidden || attrs.isImplicit, scopes, front.cursor⟩ :: inside.1,
        inside.2) := by
  rw [inventory]
  simp only [h, hm]
  rfl

theorem inventory_declaration {kind : NodeKind} (h : attrs.plan = .declaration kind)
    (hm : attrs.isMention = false) :
    inventory ctx around hidden scopes (.mk attrs inner) front =
      let loose := hidden || attrs.isImplicit || (attrs.cls = "CXXRecordDecl" && around = .lambdaExpr)
      let inside := inventoryAll ctx kind loose
        (if opensScope kind then addName scopes attrs.name else scopes) inner
        ⟨front.cursor.afterAttrs attrs, front.next + 1⟩
      (⟨.declaration, attrs, front.next, kind, loose, scopes, front.cursor⟩ :: inside.1, inside.2) := by
  rw [inventory]
  simp only [h, hm]
  rfl

theorem inventory_passedOver {kind : NodeKind} (h : attrs.plan = .statement kind)
    (hp : (hidden || beginsInSystem ctx (front.cursor.rangeFirst attrs)) = true) :
    inventory ctx around hidden scopes (.mk attrs inner) front =
      ([], ⟨skimAll inner (front.cursor.afterRange attrs), front.next⟩) := by
  rw [inventory]
  simp only [h, hp, if_true]

theorem inventory_statement {kind : NodeKind} (h : attrs.plan = .statement kind)
    (hp : (hidden || beginsInSystem ctx (front.cursor.rangeFirst attrs)) = false) :
    inventory ctx around hidden scopes (.mk attrs inner) front =
      let inside := inventoryAll ctx kind false scopes inner ⟨front.cursor.afterRange attrs, front.next + 1⟩
      (⟨.statement, attrs, front.next, kind, false, scopes, front.cursor⟩ :: inside.1, inside.2) := by
  rw [inventory]
  simp only [h, hp]
  rfl

end Equations

/-! ### Patterns and templates -/

/-- Whether an object is the template of a pattern. -/
def Entry.IsTemplateOf (e p : Entry) : Prop :=
  e.role = .template ∧ e.node = p.node ∧ e.kind = p.kind ∧ e.loose = p.loose ∧ e.scopes = p.scopes

/-- Every pattern comes with its template, those of one template perhaps aside. -/
def Paired (entries : List Entry) (spare : Entry → Prop) : Prop :=
  ∀ p ∈ entries, p.role = .pattern → (∃ e ∈ entries, e.IsTemplateOf p) ∨ spare p

namespace Paired

variable {entries others : List Entry} {spare : Entry → Prop}

theorem nil : Paired [] spare := fun _ hp => absurd hp List.not_mem_nil

theorem append (h : Paired entries spare) (h' : Paired others spare) : Paired (entries ++ others) spare := by
  intro p hp hrole
  rcases List.mem_append.mp hp with hfirst | hsecond
  · exact (h p hfirst hrole).imp_left fun ⟨e, he, htemplate⟩ => ⟨e, List.mem_append_left _ he, htemplate⟩
  · exact (h' p hsecond hrole).imp_left fun ⟨e, he, htemplate⟩ => ⟨e, List.mem_append_right _ he, htemplate⟩

theorem mono {spare' : Entry → Prop} (h : Paired entries spare) (himp : ∀ p, spare p → spare' p) :
    Paired entries spare' := fun p hp hrole => (h p hp hrole).imp_right (himp p)

/-- An object whose own patterns are spare. -/
theorem cons {e : Entry} (h : Paired entries spare) (he : e.role ≠ .pattern)
    (hspare : ∀ p, spare p → e.IsTemplateOf p) {spare' : Entry → Prop} : Paired (e :: entries) spare' := by
  intro p hp hrole
  rcases List.mem_cons.mp hp with rfl | hinside
  · exact absurd hrole he
  · rcases h p hinside hrole with ⟨o, ho, htemplate⟩ | hown
    · exact Or.inl ⟨o, List.mem_cons_of_mem _ ho, htemplate⟩
    · exact Or.inl ⟨e, List.mem_cons_self, hspare p hown⟩

theorem cons_spare {e : Entry} (h : Paired entries spare) (he : spare e) : Paired (e :: entries) spare := by
  intro p hp hrole
  rcases List.mem_cons.mp hp with rfl | hinside
  · exact Or.inr he
  · exact (h p hinside hrole).imp_left fun ⟨o, ho, htemplate⟩ => ⟨o, List.mem_cons_of_mem _ ho, htemplate⟩

end Paired

/-- Patterns come with their templates among the objects of a row, and among those inside a template but for the
patterns of that template. -/
structure PairsPatterns (ctx : Context) (nodes : List Node) : Prop where
  row : ∀ around hidden scopes front,
    Paired (inventoryAll ctx around hidden scopes nodes front).1 fun _ => False
  template : ∀ around kind merges template loose scopes own front,
    Paired (inventoryTemplate ctx around kind merges template loose scopes own nodes front).1 fun p =>
      template = p.node ∧ kind = p.kind ∧ loose = p.loose ∧ scopes = p.scopes

theorem paired_inventory {ctx : Context} {inner : List Node} (h : PairsPatterns ctx inner) (attrs : Attrs)
    (around : NodeKind) (hidden : Bool) (scopes : List String) (front : Front) :
    Paired (inventory ctx around hidden scopes (.mk attrs inner) front).1 fun _ => False := by
  cases hplan : attrs.plan with
  | skim =>
    rw [inventory_skim ctx around hidden scopes attrs inner front hplan]
    exact Paired.nil
  | dissolve =>
    rw [inventory_dissolve ctx around hidden scopes attrs inner front hplan]
    exact h.row _ _ _ _
  | template kind merges =>
    cases hm : attrs.isMention with
    | true =>
      rw [inventory_mention ctx around hidden scopes attrs inner front hm (Or.inl ⟨kind, merges, hplan⟩)]
      exact Paired.nil
    | false =>
      rw [inventory_template ctx around hidden scopes attrs inner front hplan hm]
      exact (h.template _ _ _ _ _ _ _ _).cons (by simp) fun _ hown => ⟨rfl, hown⟩
  | declaration kind =>
    cases hm : attrs.isMention with
    | true =>
      rw [inventory_mention ctx around hidden scopes attrs inner front hm (Or.inr ⟨kind, hplan⟩)]
      exact Paired.nil
    | false =>
      rw [inventory_declaration ctx around hidden scopes attrs inner front hplan hm]
      exact (h.row _ _ _ _).cons (by simp) fun _ => False.elim
  | statement kind =>
    cases hpass : hidden || beginsInSystem ctx (front.cursor.rangeFirst attrs) with
    | true =>
      rw [inventory_passedOver ctx around hidden scopes attrs inner front hplan hpass]
      exact Paired.nil
    | false =>
      rw [inventory_statement ctx around hidden scopes attrs inner front hplan hpass]
      exact (h.row _ _ _ _).cons (by simp) fun _ => False.elim

theorem pairsPatterns (ctx : Context) (nodes : List Node) : PairsPatterns ctx nodes := by
  induction nodes using forest_induction with
  | nil =>
    constructor
    · intro around hidden scopes front
      rw [inventoryAll]
      exact Paired.nil
    · intro around kind merges template loose scopes own front
      rw [inventoryTemplate]
      exact Paired.nil
  | cons attrs inner rest ihInner ihRest =>
    constructor
    · intro around hidden scopes front
      rw [inventoryAll]
      exact (paired_inventory ihInner attrs _ _ _ _).append (ihRest.row _ _ _ _)
    · intro around kind merges template loose scopes own front
      have hfirst := paired_inventory ihInner attrs kind loose own front
      rw [inventoryTemplate]
      split
      · refine Paired.append ?_ ((ihRest.row _ _ _ _).mono fun _ => False.elim)
        split
        · exact hfirst.mono fun _ => False.elim
        · split
          · exact Paired.nil
          · exact ((ihInner.row _ _ _ _).mono fun _ => False.elim).cons_spare ⟨rfl, rfl, rfl, rfl⟩
      · exact (hfirst.mono fun _ => False.elim).append (ihRest.template _ _ _ _ _ _ _ _)

/-- The pattern of a template that merges has the node of that template. -/
theorem exists_template_of_pattern {ctx : Context} {attrs : Attrs} {inner : List Node} {p : Entry}
    (hp : p ∈ unitInventory ctx attrs inner) (hrole : p.role = .pattern) :
    ∃ e ∈ unitInventory ctx attrs inner, e.IsTemplateOf p := by
  have hpaired : Paired (unitInventory ctx attrs inner) fun _ => False :=
    ((pairsPatterns ctx inner).row _ _ _ _).cons (by simp) fun _ => False.elim
  exact (hpaired p hp hrole).resolve_right id

end UnitFacts.Dump
