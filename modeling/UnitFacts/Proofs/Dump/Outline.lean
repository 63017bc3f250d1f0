import UnitFacts.Proofs.Dump.Reading
import UnitFacts.Proofs.Tree.Shape

/-!
The outline of a document: the objects that are kept, each with the kept objects inside it. An
object is kept if it is a declaration, a template, an expression or a statement and neither itself
nor anything around it is

* of a class that is skimmed,
* a mention of a declaration,
* a declaration or template that the compiler made up,
* the class of a lambda,
* listed after the pattern of a template,
* an expression or statement that begins in a system header.

The pattern of a template that merges counts as the template, whatever its own attributes say, and a
constructor initialiser as the objects inside it. The locations of what is not kept are still read,
as the begin of a later statement may be written relative to them.
-/

namespace UnitFacts.Dump

/-- A kept object with its node kind and spelling and the kept objects inside it. -/
inductive Outline where
  | mk (attrs : Attrs) (kind : NodeKind) (spelling : String) (inner : List Outline)

/-- An object, unless it is hidden. -/
def Outline.unless (hidden : Bool) (attrs : Attrs) (kind : NodeKind) (spelling : String)
    (inner : List Outline) : List Outline :=
  if hidden then [] else [.mk attrs kind spelling inner]

/-- Whether a statement begins in a system header. -/
def beginsInSystem (ctx : Context) (first? : Option Loc) : Bool :=
  first?.any fun first => ctx.isSystemFile first.expansion.file

mutual

/-- What is kept of an object, and the cursor after it. `around` is the kind of the nearest kept
object around it, and `hidden` says whether something around it hides it. -/
def outline (ctx : Context) (around : NodeKind) (hidden : Bool) :
    Node → LocCursor → List Outline × LocCursor
  | .mk attrs inner, cursor =>
    match attrs.plan with
    | .skim => ([], skimAll inner (cursor.afterAttrs attrs))
    | .dissolve => outlineAll ctx around hidden inner (cursor.afterAttrs attrs)
    | .template kind merges =>
      if attrs.isMention then ([], cursor)
      else
        let hidden := hidden || attrs.isImplicit
        let inside := outlineTemplate ctx around kind merges hidden inner (cursor.afterAttrs attrs)
        (Outline.unless hidden attrs kind attrs.name inside.1, inside.2)
    | .declaration kind =>
      if attrs.isMention then ([], cursor)
      else
        let hidden := hidden || attrs.isImplicit || (attrs.cls = "CXXRecordDecl" && around = .lambdaExpr)
        let inside := outlineAll ctx kind hidden inner (cursor.afterAttrs attrs)
        (Outline.unless hidden attrs kind attrs.name inside.1, inside.2)
    | .statement kind =>
      if hidden || beginsInSystem ctx (cursor.rangeFirst attrs) then
        ([], skimAll inner (cursor.afterRange attrs))
      else
        let inside := outlineAll ctx kind false inner (cursor.afterRange attrs)
        ([.mk attrs kind (statementSpelling kind attrs) inside.1], inside.2)

/-- What is kept of a row of objects. -/
def outlineAll (ctx : Context) (around : NodeKind) (hidden : Bool) :
    List Node → LocCursor → List Outline × LocCursor
  | [], cursor => ([], cursor)
  | node :: rest, cursor =>
    let first := outline ctx around hidden node cursor
    let others := outlineAll ctx around hidden rest first.2
    (first.1 ++ others.1, others.2)

/-- What is kept of the objects inside a template. -/
def outlineTemplate (ctx : Context) (around kind : NodeKind) (merges hidden : Bool) :
    List Node → LocCursor → List Outline × LocCursor
  | [], cursor => ([], cursor)
  | .mk attrs inner :: rest, cursor =>
    if isPattern kind attrs.cls then
      let pattern :=
        if !merges then outline ctx kind hidden (.mk attrs inner) cursor
        else if attrs.isMention then ([], cursor)
        else outlineAll ctx kind hidden inner (cursor.afterAttrs attrs)
      (pattern.1, (outlineAll ctx around true rest pattern.2).2)
    else
      let first := outline ctx kind hidden (.mk attrs inner) cursor
      let others := outlineTemplate ctx around kind merges hidden rest first.2
      (first.1 ++ others.1, others.2)

end

section Equations

variable (ctx : Context) (around : NodeKind) (hidden : Bool) (attrs : Attrs) (inner : List Node)
  (cursor : LocCursor)

theorem outline_skim (h : attrs.plan = .skim) :
    outline ctx around hidden (.mk attrs inner) cursor = ([], skimAll inner (cursor.afterAttrs attrs)) := by
  rw [outline]
  simp only [h]

theorem outline_dissolve (h : attrs.plan = .dissolve) :
    outline ctx around hidden (.mk attrs inner) cursor =
      outlineAll ctx around hidden inner (cursor.afterAttrs attrs) := by
  rw [outline]
  simp only [h]

theorem outline_mention (h : attrs.isMention = true)
    (hplan : (∃ kind merges, attrs.plan = .template kind merges) ∨ ∃ kind, attrs.plan = .declaration kind) :
    outline ctx around hidden (.mk attrs inner) cursor = ([], cursor) := by
  rw [outline]
  rcases hplan with ⟨kind, merges, hplan⟩ | ⟨kind, hplan⟩ <;> simp only [hplan, h, if_true]

theorem outline_template {kind : NodeKind} {merges : Bool} (h : attrs.plan = .template kind merges)
    (hm : attrs.isMention = false) :
    outline ctx around hidden (.mk attrs inner) cursor =
      let inside := outlineTemplate ctx around kind merges (hidden || attrs.isImplicit) inner
        (cursor.afterAttrs attrs)
      (Outline.unless (hidden || attrs.isImplicit) attrs kind attrs.name inside.1, inside.2) := by
  rw [outline]
  simp only [h, hm]
  rfl

theorem outline_declaration {kind : NodeKind} (h : attrs.plan = .declaration kind)
    (hm : attrs.isMention = false) :
    outline ctx around hidden (.mk attrs inner) cursor =
      let loose := hidden || attrs.isImplicit || (attrs.cls = "CXXRecordDecl" && around = .lambdaExpr)
      let inside := outlineAll ctx kind loose inner (cursor.afterAttrs attrs)
      (Outline.unless loose attrs kind attrs.name inside.1, inside.2) := by
  rw [outline]
  simp only [h, hm]
  rfl

theorem outline_passedOver {kind : NodeKind} (h : attrs.plan = .statement kind)
    (hp : (hidden || beginsInSystem ctx (cursor.rangeFirst attrs)) = true) :
    outline ctx around hidden (.mk attrs inner) cursor = ([], skimAll inner (cursor.afterRange attrs)) := by
  rw [outline]
  simp only [h, hp, if_true]

theorem outline_statement {kind : NodeKind} (h : attrs.plan = .statement kind)
    (hp : (hidden || beginsInSystem ctx (cursor.rangeFirst attrs)) = false) :
    outline ctx around hidden (.mk attrs inner) cursor =
      let inside := outlineAll ctx kind false inner (cursor.afterRange attrs)
      ([.mk attrs kind (statementSpelling kind attrs) inside.1], inside.2) := by
  rw [outline]
  simp only [h, hp]
  rfl

/-- Nothing is kept of what is hidden. -/
theorem hidden_eq_nil (nodes : List Node) :
    (∀ around cursor, (outlineAll ctx around true nodes cursor).1 = []) ∧
      ∀ around kind merges cursor, (outlineTemplate ctx around kind merges true nodes cursor).1 = [] := by
  induction nodes using forest_induction with
  | nil =>
    constructor
    · intro around cursor
      rw [outlineAll]
    · intro around kind merges cursor
      rw [outlineTemplate]
  | cons attrs inner rest ihInner ihRest =>
    have hnode : ∀ around cursor, (outline ctx around true (.mk attrs inner) cursor).1 = [] := by
      intro around cursor
      rw [outline]
      split
      · rfl
      · exact ihInner.1 around _
      · split <;> rfl
      · split <;> rfl
      · rfl
    constructor
    · intro around cursor
      rw [outlineAll]
      simp only [hnode, ihRest.1, List.append_nil]
    · intro around kind merges cursor
      rw [outlineTemplate]
      split
      · split
        · exact hnode kind cursor
        · split
          · rfl
          · exact ihInner.1 kind _
      · simp only [hnode, ihRest.2, List.append_nil]

end Equations

/-- The node kind that a plan gives. -/
def Plan.kind? : Plan → Option NodeKind
  | .template kind _ | .declaration kind | .statement kind => some kind
  | _ => none

theorem declarationKind?_ne (cls : String) (tag : Option String) :
    declarationKind? cls tag ≠ some .typeRef ∧ declarationKind? cls tag ≠ some .unit := by
  have hrecord : recordKind tag ≠ .typeRef ∧ recordKind tag ≠ .unit := by
    unfold recordKind
    split <;> decide
  unfold declarationKind?
  split <;> simp [hrecord]

theorem expressionKind?_ne (cls : String) :
    expressionKind? cls ≠ some .typeRef ∧ expressionKind? cls ≠ some .unit := by
  unfold expressionKind?
  split <;> simp

theorem statementKind?_ne (cls : String) :
    statementKind? cls ≠ some .typeRef ∧ statementKind? cls ≠ some .unit := by
  unfold statementKind?
  split <;> simp

/-- No object inside a unit is a type reference or a unit. -/
theorem kind?_plan_ne (attrs : Attrs) :
    attrs.plan.kind? ≠ some .typeRef ∧ attrs.plan.kind? ≠ some .unit := by
  have hplain : ∀ cls tag,
      (plainPlan cls tag).kind? ≠ some .typeRef ∧ (plainPlan cls tag).kind? ≠ some .unit := by
    intro cls tag
    unfold plainPlan
    split
    · simp [Plan.kind?]
    · split
      · rename_i kind heq
        rw [Plan.kind?, ← heq]
        exact declarationKind?_ne cls tag
      · rename_i kind _ heq
        rw [Plan.kind?, ← heq]
        exact expressionKind?_ne cls
      · rename_i kind _ _ heq
        rw [Plan.kind?, ← heq]
        exact statementKind?_ne cls
      · simp [Plan.kind?]
  unfold Attrs.plan
  split
  case h_8 => exact hplain _ _
  all_goals simp [Plan.kind?]

/-- What is kept of the objects inside a unit. -/
def unitOutline (ctx : Context) (attrs : Attrs) (inner : List Node) : List Outline :=
  (outlineAll ctx .unit false inner (LocCursor.afterAttrs {} attrs)).1

/-- Nodes of a tree are what an outline says. `look` gives the shapes of nodes; below `parent` the
outline has the nodes `tops`, and in document order, with all that is inside, the nodes `all`. -/
inductive Depicts (look : NodeId → Option Shape) :
    (parent : NodeId) → List Outline → (tops all : List NodeId) → Prop
  | nil {parent : NodeId} : Depicts look parent [] [] []
  | cons {parent id : NodeId} {attrs : Attrs} {kind : NodeKind} {spelling : String}
      {inner rest : List Outline} {below tops inside others : List NodeId} :
      look id = some ⟨kind, spelling, some parent, below⟩ → kind ≠ .typeRef →
      Depicts look id inner below inside → Depicts look parent rest tops others →
      Depicts look parent (.mk attrs kind spelling inner :: rest) (id :: tops) (id :: inside ++ others)

namespace Depicts

variable {look look' : NodeId → Option Shape} {parent : NodeId} {outs outs' : List Outline}
  {tops tops' all all' : List NodeId}

theorem append (h : Depicts look parent outs tops all) (h' : Depicts look parent outs' tops' all') :
    Depicts look parent (outs ++ outs') (tops ++ tops') (all ++ all') := by
  induction h with
  | nil => exact h'
  | cons hlook hkind hinner hrest _ ih =>
    rw [List.append_assoc]
    exact .cons hlook hkind hinner (ih h')

/-- Only the shapes of the depicted nodes matter. -/
theorem of_eq (h : Depicts look parent outs tops all) (hsame : ∀ id ∈ all, look' id = look id) :
    Depicts look' parent outs tops all := by
  induction h with
  | nil => exact .nil
  | @cons parent id attrs kind spelling inner rest below tops inside others hlook hkind _ _ ihInner ihRest =>
    have hid : look' id = look id := hsame id (by simp)
    refine .cons (hid.trans hlook) hkind (ihInner fun k hk => hsame k ?_) (ihRest fun k hk => hsame k ?_)
    · simp [hk]
    · simp [hk]

end Depicts

end UnitFacts.Dump
