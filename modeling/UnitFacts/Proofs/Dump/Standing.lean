import UnitFacts.Proofs.Dump.Linking
import UnitFacts.Proofs.Tree.Links
import UnitFacts.Proofs.Tree.Standing

/-!
Where the links of nodes come from. Reading a dump sets none, and of the passes after it only the one for
redeclarations touches the standing of a node.
-/

namespace UnitFacts

open UnitFacts.Tree

/-- No node has a canonical declaration or a definition. -/
def Tree.Unlinked (t : Tree) : Prop := ∀ id, t.canonical? id = none ∧ t.definition? id = none

theorem Tree.Unlinked.of_standing {t t' : Tree} (h : t.Unlinked) (hstanding : ∀ k, t'.standing k = t.standing k) :
    t'.Unlinked := by
  intro k
  rw [canonical?_eq_standing, definition?_eq_standing, hstanding, ← canonical?_eq_standing,
    ← definition?_eq_standing]
  exact h k

namespace Dump

section Reading

variable (ctx : Context) (d : Draft) (frame : Frame) (detached : Bool) (kind : NodeKind) (attrs : Attrs)
  (inner : List Node) (id k : NodeId)

@[simp] theorem linksOf_placeAt (t : Tree) (path : String) (line col : UInt32) :
    (placeAt ctx t id path line col).linksOf k = t.linksOf k := by
  rw [placeAt, linksOf_place, withFile]
  split
  · rfl
  · exact linksOf_addFile t k path _

namespace Draft

@[simp] theorem linksOf_create (spelling : String) :
    (d.create frame detached kind spelling).2.tree.linksOf k = d.tree.linksOf k := by
  cases detached <;> simp [create]

@[simp] theorem linksOf_place (at? end? : Option Loc) :
    (d.place ctx id at? end?).tree.linksOf k = d.tree.linksOf k := by
  cases at? <;> cases end? <;> simp [place, edit]

@[simp] theorem linksOf_setEnd (end? : Option Loc) : (d.setEnd id end?).tree.linksOf k = d.tree.linksOf k := by
  cases end? <;> simp [setEnd, edit]

@[simp] theorem linksOf_markIf (cond : Bool) : (d.markIf id cond).tree.linksOf k = d.tree.linksOf k := by
  cases cond <;> simp [markIf, edit]

theorem linksOf_declareTemplate (loc? last? : Option Loc) :
    (d.declareTemplate ctx frame detached kind attrs loc? last?).2.tree.linksOf k = d.tree.linksOf k := by
  simp [snd_declareTemplate]

theorem linksOf_declare (loc? first? last? : Option Loc) :
    (d.declare ctx frame detached kind attrs inner loc? first? last?).2.tree.linksOf k = d.tree.linksOf k := by
  rw [declare_eq]
  exact (linksOf_markIf ..).trans (d.linksOf_declareTemplate ctx frame detached kind attrs k loc? last?)

theorem linksOf_mergePattern : (d.mergePattern id kind attrs inner).tree.linksOf k = d.tree.linksOf k := by
  rw [mergePattern_eq]
  simp

theorem linksOf_state (first? last? : Option Loc) :
    (d.state ctx frame kind attrs first? last?).2.tree.linksOf k = d.tree.linksOf k := by
  rw [snd_state]
  split <;> simp [edit]

end Draft

end Reading

theorem stepClosed_linksOf (ctx : Context) :
    StepClosed ctx (fun _ _ => True) fun d d' => ∀ k, d'.tree.linksOf k = d.tree.linksOf k where
  refl _ _ := rfl
  trans h h' := fun k => (h' k).trans (h k)
  valid _ _ := trivial
  loosen _ := trivial
  cursor _ _ _ := rfl
  declare frame d kind attrs inner loc? first? last? _ :=
    ⟨fun k => d.linksOf_declare ctx frame _ kind attrs inner k loc? first? last?, trivial⟩
  declareTemplate frame d kind attrs loc? last? _ :=
    ⟨fun k => d.linksOf_declareTemplate ctx frame _ kind attrs k loc? last?, trivial⟩
  mergePattern _ d kind attrs inner _ := fun k => d.linksOf_mergePattern kind attrs inner _ k
  state frame d kind attrs first? last? _ _ :=
    ⟨fun k => d.linksOf_state ctx frame kind attrs k first? last?, trivial⟩

/-- Reading a dump sets no links. -/
theorem linksOf_buildRoot (ctx : Context) (root : Node) (k : NodeId) : (buildRoot ctx root).tree.linksOf k = {} := by
  obtain ⟨attrs, inner⟩ := root
  rw [buildRoot_eq, ((stepClosed_linksOf ctx).keepsTo inner).row _ _ trivial, startDraft, Draft.tree_register]
  cases k <;> simp [Tree.start, linksOf, node?, UnitFacts.Node.nodeLinks]

theorem unlinked_buildRoot (ctx : Context) (root : Node) : (buildRoot ctx root).tree.Unlinked := by
  intro k
  rw [canonical?_eq_links, definition?_eq_links, linksOf_buildRoot]
  exact ⟨rfl, rfl⟩

section Passes

variable (ctx : Context) (d : Draft) (t : Tree) (k : NodeId)

@[simp] theorem standing_placeAt (id : NodeId) (path : String) (line col : UInt32) :
    (placeAt ctx t id path line col).standing k = t.standing k := by
  rw [placeAt, standing_place, withFile]
  split
  · rfl
  · exact standing_addFile t k path _

theorem standing_linkScopes : (linkScopes d t).standing k = t.standing k :=
  view_linkScopes (·.standing k) d t fun t id scope => by simp

theorem isDefinition_linkScopes : (linkScopes d t).isDefinition = t.isDefinition := by
  funext k
  rw [isDefinition_eq_standing, standing_linkScopes, ← isDefinition_eq_standing]

theorem standing_linkReferences : (linkReferences d t).standing k = t.standing k :=
  view_linkReferences (·.standing k) d t fun t id target => by simp

theorem standing_linkConstructs : (linkConstructs d t).standing k = t.standing k :=
  view_linkConstructs (·.standing k) d t fun t id target => by simp

theorem standing_addTypeUses : (addTypeUses ctx d t).standing k = t.standing k := by
  refine view_foldl (·.standing k) (fun t use => ?_) _ t
  simp [addTypeUse]

end Passes

end Dump

end UnitFacts
