import UnitFacts.Proofs.Dump.Alike
import UnitFacts.Proofs.Dump.Growth
import UnitFacts.Proofs.Dump.Outline

/-!
Reading draws the outline of a document. While the inner nodes of a node are read, the tree grows
below that node by what the outline says of them: the new nodes that are attached are those of the
outline, in document order, and all other new nodes are loose and bare.
-/

namespace UnitFacts

open UnitFacts.Tree

namespace Dump

/-- A tree that has grown below `parent` by what an outline says and by loose nodes. -/
structure Grown (t t' : Tree) (parent : NodeId) (outs : List Outline) (tops all : List NodeId) :
    Prop where
  size_le : t.size ≤ t'.size
  old : ∀ id, id < t.size → id ≠ parent → t'.shape? id = t.shape? id
  adopted : t'.shape? parent = (t.shape? parent).map (·.adopt tops)
  depicts : Depicts t'.shape? parent outs tops all
  range : ∀ id ∈ all, t.size ≤ id ∧ id < t'.size
  sorted : all.Pairwise (· < ·)
  loose : ∀ id, t.size ≤ id → id < t'.size → id ∉ all →
    ∃ s, t'.shape? id = some s ∧ s.kind ≠ .typeRef ∧ s.parent = none ∧ s.children = []

namespace Grown

variable {t t₁ t₂ : Tree} {parent : NodeId} {outs outs' : List Outline}
  {tops tops' all all' : List NodeId}

/-- Changes that are not about the shape of nodes. -/
theorem of_shape_eq (hshape : ∀ id, t₁.shape? id = t.shape? id) : Grown t t₁ parent [] [] [] where
  size_le := Nat.le_of_eq (size_eq_of_shape?_eq hshape).symm
  old id _ _ := hshape id
  adopted := by simp [hshape]
  depicts := .nil
  range := by simp
  sorted := List.Pairwise.nil
  loose id hle hlt _ := absurd (Nat.lt_of_lt_of_le (size_eq_of_shape?_eq hshape ▸ hlt) hle) (Nat.lt_irrefl _)

theorem trans (h : Grown t t₁ parent outs tops all) (h' : Grown t₁ t₂ parent outs' tops' all')
    (hp : parent < t.size) : Grown t t₂ parent (outs ++ outs') (tops ++ tops') (all ++ all') where
  size_le := Nat.le_trans h.size_le h'.size_le
  old id hid hne := (h'.old id (Nat.lt_of_lt_of_le hid h.size_le) hne).trans (h.old id hid hne)
  adopted := by
    rw [h'.adopted, h.adopted, Option.map_map]
    congr 1
    funext s
    exact Shape.adopt_adopt s tops tops'
  depicts := by
    refine (h.depicts.of_eq ?_).append h'.depicts
    intro id hid
    have hrange := h.range id hid
    exact h'.old id hrange.2 (by lia)
  range id hid := by
    have hle := h.size_le
    have hle' := h'.size_le
    rcases List.mem_append.mp hid with hfirst | hsecond
    · have hrange := h.range id hfirst
      exact ⟨hrange.1, by lia⟩
    · have hrange := h'.range id hsecond
      exact ⟨by lia, hrange.2⟩
  sorted := by
    rw [List.pairwise_append]
    refine ⟨h.sorted, h'.sorted, ?_⟩
    intro a ha b hb
    exact Nat.lt_of_lt_of_le (h.range a ha).2 (h'.range b hb).1
  loose id hle hlt hnot := by
    rw [List.mem_append, not_or] at hnot
    by_cases hid : id < t₁.size
    · rw [h'.old id hid (by lia)]
      exact h.loose id hle hid hnot.1
    · exact h'.loose id (Nat.le_of_not_lt hid) hlt hnot.2

/-- Where only loose nodes were added it does not matter below what. -/
theorem elsewhere (h : Grown t t₁ parent [] tops all) (other : NodeId) (ho : other < t.size) :
    Grown t t₁ other [] [] [] := by
  obtain ⟨hsize, hold, hparent, hdepicts, -, -, hloose⟩ := h
  cases hdepicts
  have hsame : ∀ id, id < t.size → t₁.shape? id = t.shape? id := by
    intro id hid
    by_cases hne : id = parent
    · subst hne
      simpa using hparent
    · exact hold id hid hne
  exact ⟨hsize, fun id hid _ => hsame id hid, by simp [hsame other ho], .nil, by simp,
    List.Pairwise.nil, hloose⟩

theorem kind?_eq (h : Grown t t₁ parent outs tops all) {id : NodeId} (hid : id < t.size) :
    t₁.kind? id = t.kind? id := by
  rw [kind?_eq_shape, kind?_eq_shape]
  by_cases hne : id = parent
  · rw [hne, h.adopted, Option.map_map]
    rfl
  · rw [h.old id hid hne]

end Grown

/-- A tree that has one more node, loose or attached below `parent`, without children. -/
structure Gains (t t' : Tree) (loose : Bool) (parent : NodeId) (kind : NodeKind)
    (spelling : String) : Prop where
  size_eq : t'.size = t.size + 1
  shape?_eq : ∀ id, t'.shape? id =
    if id = t.size then some ⟨kind, spelling, if loose then none else some parent, []⟩
    else if id = parent ∧ loose = false then (t.shape? id).map (·.adopt [t.size])
    else t.shape? id

namespace Gains

theorem kind?_new {t t' : Tree} {loose : Bool} {parent : NodeId} {kind : NodeKind}
    {spelling : String}
    (h : Gains t t' loose parent kind spelling) : t'.kind? t.size = some kind := by
  rw [kind?_eq_shape, h.shape?_eq, if_pos rfl]
  rfl

theorem kind?_old {t t' : Tree} {loose : Bool} {parent : NodeId} {kind : NodeKind}
    {spelling : String}
    (h : Gains t t' loose parent kind spelling) {id : NodeId} (hid : id < t.size) :
    t'.kind? id = t.kind? id := by
  rw [kind?_eq_shape, kind?_eq_shape, h.shape?_eq, if_neg (Nat.ne_of_lt hid)]
  split
  · rw [Option.map_map]
    rfl
  · rfl

variable {t t₁ t₂ : Tree} {parent : NodeId} {kind : NodeKind} {spelling : String}
  {outs : List Outline}
  {tops all : List NodeId}

/-- A node that is attached, and then its contents. -/
theorem grown_attached (h : Gains t t₁ false parent kind spelling)
    (hin : Grown t₁ t₂ t.size outs tops all)
    (hp : parent < t.size) (hkind : kind ≠ .typeRef) (attrs : Attrs) :
    Grown t t₂ parent [.mk attrs kind spelling outs] [t.size] (t.size :: all) := by
  have hsize := h.size_eq
  have hle := hin.size_le
  have hself : t₂.shape? t.size = some ⟨kind, spelling, some parent, tops⟩ := by
    rw [hin.adopted, h.shape?_eq]
    simp [Shape.adopt]
  refine ⟨by lia, ?_, ?_, ?_, ?_, ?_, ?_⟩
  · intro id hid hne
    rw [hin.old id (by lia) (by lia), h.shape?_eq, if_neg (by lia), if_neg (by simp [hne])]
  · rw [hin.old parent (by lia) (by lia), h.shape?_eq, if_neg (by lia), if_pos ⟨rfl, rfl⟩]
  · have hnode : Depicts t₂.shape? parent [.mk attrs kind spelling outs] [t.size] (t.size :: all ++ []) :=
      .cons hself hkind hin.depicts .nil
    rwa [List.append_nil] at hnode
  · intro id hid
    rcases List.mem_cons.mp hid with rfl | hmem
    · exact ⟨Nat.le_refl _, by lia⟩
    · have hrange := hin.range id hmem
      exact ⟨by lia, hrange.2⟩
  · rw [List.pairwise_cons]
    refine ⟨?_, hin.sorted⟩
    intro id hid
    have hrange := hin.range id hid
    lia
  · intro id hge hlt hnot
    rw [List.mem_cons, not_or] at hnot
    exact hin.loose id (by have := hnot.1; lia) hlt hnot.2

/-- A node that is loose, and then its contents, which are loose too. -/
theorem grown_loose (h : Gains t t₁ true parent kind spelling)
    (hin : Grown t₁ t₂ t.size [] tops all)
    (hp : parent < t.size) (hkind : kind ≠ .typeRef) : Grown t t₂ parent [] [] [] := by
  have hsize := h.size_eq
  have hle := hin.size_le
  have helse := hin.elsewhere t.size (by lia)
  have hold : ∀ id, id < t.size → t₂.shape? id = t.shape? id := by
    intro id hid
    rw [helse.old id (by lia) (by lia), h.shape?_eq, if_neg (by lia), if_neg (by simp)]
  refine ⟨by lia, fun id hid _ => hold id hid, by simp [hold parent hp], .nil, by simp, List.Pairwise.nil, ?_⟩
  intro id hge hlt _
  by_cases hid : id = t.size
  · refine ⟨⟨kind, spelling, none, []⟩, ?_, hkind, rfl, rfl⟩
    rw [hid, helse.adopted, h.shape?_eq]
    simp
  · exact helse.loose id (by lia) hlt (by simp)

theorem grown {loose : Bool} (h : Gains t t₁ loose parent kind spelling)
    (hin : Grown t₁ t₂ t.size outs tops all)
    (hp : parent < t.size) (hkind : kind ≠ .typeRef) (hloose : loose = true → outs = []) (attrs : Attrs) :
    ∃ tops' all', Grown t t₂ parent (Outline.unless loose attrs kind spelling outs) tops' all' := by
  cases loose with
  | false => exact ⟨_, _, h.grown_attached hin hp hkind attrs⟩
  | true =>
    obtain rfl := hloose rfl
    exact ⟨_, _, h.grown_loose hin hp hkind⟩

end Gains

theorem shape?_placeAt (ctx : Context) (t : Tree) (id : NodeId) (path : String) (line col : UInt32)
    (k : NodeId) :
    (placeAt ctx t id path line col).shape? k = t.shape? k := by
  have hfile : (withFile ctx t path).shape? k = t.shape? k := by
    unfold withFile
    split
    · rfl
    · exact t.shape?_addFile path _ k
  rw [placeAt, shape?_place, hfile]

namespace Draft

variable (ctx : Context) (d : Draft) (frame : Frame) (detached : Bool) (kind : NodeKind)
  (attrs : Attrs)
  (inner : List Node) (id k : NodeId)

theorem shape?_place (at? end? : Option Loc) :
    (d.place ctx id at? end?).tree.shape? k = d.tree.shape? k := by
  cases at? with
  | none =>
    cases end? with
    | none => rfl
    | some last => exact shape?_setEndLine d.tree id k _
  | some loc =>
    have hat := shape?_placeAt ctx d.tree id loc.expansion.file loc.spelling.line loc.spelling.col k
    cases end? with
    | none => exact hat
    | some last => exact (shape?_setEndLine _ id k _).trans hat

theorem shape?_markIf (cond : Bool) : (d.markIf id cond).tree.shape? k = d.tree.shape? k := by
  unfold markIf
  split
  · exact shape?_markDefinition _ id k
  · rfl

theorem shape?_setEnd (end? : Option Loc) : (d.setEnd id end?).tree.shape? k = d.tree.shape? k := by
  cases end? with
  | none => rfl
  | some loc => exact shape?_setEndLine _ id k _

theorem shape?_mergePattern :
    (d.mergePattern id kind attrs inner).tree.shape? k = d.tree.shape? k := by
  rw [mergePattern_eq, shape?_markIf, tree_noteLinks, shape?_setEnd, tree_register]

theorem gains_create (hp : frame.parent < d.tree.size) (spelling : String) :
    Gains d.tree (d.create frame detached kind spelling).2.tree detached frame.parent kind spelling := by
  refine ⟨d.size_create frame detached kind spelling, ?_⟩
  intro k
  rw [snd_create]
  refine (shape?_setSemanticParent _ _ k _).trans ?_
  cases detached with
  | true =>
    rw [if_pos rfl, shape?_addLoose]
    simp
  | false =>
    rw [if_neg (by decide), d.tree.shape?_attach hp]
    simp

theorem gains_declareTemplate (hp : frame.parent < d.tree.size) (loc? last? : Option Loc) :
    Gains d.tree (d.declareTemplate ctx frame detached kind attrs loc? last?).2.tree detached frame.parent kind
      attrs.name := by
  refine ⟨d.size_declareTemplate ctx frame detached kind attrs loc? last?, ?_⟩
  intro k
  rw [snd_declareTemplate, tree_noteLinks, shape?_place, tree_register]
  exact (d.gains_create frame detached kind hp attrs.name).shape?_eq k

theorem gains_declare (hp : frame.parent < d.tree.size) (loc? first? last? : Option Loc) :
    Gains d.tree (d.declare ctx frame detached kind attrs inner loc? first? last?).2.tree detached frame.parent kind
      attrs.name := by
  refine ⟨d.size_declare ctx frame detached kind attrs inner loc? first? last?, ?_⟩
  intro k
  rw [declare_eq]
  refine (shape?_markIf _ _ k _).trans ?_
  exact (d.gains_declareTemplate ctx frame detached kind attrs hp loc? last?).shape?_eq k

theorem gains_state (hp : frame.parent < d.tree.size) (first? last? : Option Loc) :
    Gains d.tree (d.state ctx frame kind attrs first? last?).2.tree false frame.parent kind
      (statementSpelling kind attrs) := by
  refine ⟨d.size_state ctx frame kind attrs first? last?, ?_⟩
  intro k
  have hplace : ((((d.create frame false kind (statementSpelling kind attrs)).2.register attrs d.tree.nextId).place ctx
      d.tree.nextId (statementPosition ctx kind attrs first? last?) last?).tree).shape? k =
        (d.create frame false kind (statementSpelling kind attrs)).2.tree.shape? k := by
    rw [shape?_place, tree_register]
  have hcreate := (d.gains_create frame false kind hp (statementSpelling kind attrs)).shape?_eq k
  rw [snd_state]
  split
  · exact ((shape?_setTokens _ _ k _).trans hplace).trans hcreate
  · exact hplace.trans hcreate

end Draft

/-- Reading has moved the cursor and grown the tree below `parent` as an outline says. -/
def Draws (d d' : Draft) (parent : NodeId) (out : List Outline × LocCursor) : Prop :=
  d'.cursor = out.2 ∧ ∃ tops all, Grown d.tree d'.tree parent out.1 tops all

namespace Draws

variable {d d₁ d₂ : Draft} {parent : NodeId} {out out' : List Outline × LocCursor}

theorem kind?_eq (h : Draws d d₁ parent out) {id : NodeId} {kind : NodeKind}
    (hid : d.tree.kind? id = some kind) :
    d₁.tree.kind? id = some kind := by
  obtain ⟨-, tops, all, hgrown⟩ := h
  exact (hgrown.kind?_eq (lt_size_of_kind? hid)).trans hid

/-- Nothing is drawn where only the cursor moves or shapes stay as they are. -/
theorem of_shape_eq (parent : NodeId) (hshape : ∀ id, d₁.tree.shape? id = d.tree.shape? id) :
    Draws d d₁ parent ([], d₁.cursor) := ⟨rfl, [], [], Grown.of_shape_eq hshape⟩

theorem trans (h : Draws d d₁ parent out) (h' : Draws d₁ d₂ parent out')
    (hp : parent < d.tree.size) :
    Draws d d₂ parent (out.1 ++ out'.1, out'.2) := by
  obtain ⟨-, tops, all, hgrown⟩ := h
  obtain ⟨hcursor, tops', all', hgrown'⟩ := h'
  exact ⟨hcursor, _, _, hgrown.trans hgrown' hp⟩

/-- A step that draws nothing may come before or be taken for one elsewhere. -/
theorem of_nil (h : Draws d d₁ parent out) (hnil : out.1 = []) (other : NodeId)
    (ho : other < d.tree.size) :
    Draws d d₁ other ([], out.2) := by
  obtain ⟨hcursor, tops, all, hgrown⟩ := h
  rw [hnil] at hgrown
  exact ⟨hcursor, [], [], hgrown.elsewhere other ho⟩

/-- A new node and then its contents. -/
theorem gain {loose : Bool} {kind : NodeKind} {spelling : String}
    (hgain : Gains d.tree d₁.tree loose parent kind spelling)
    (hin : Draws d₁ d₂ d.tree.size out) (hp : parent < d.tree.size) (hkind : kind ≠ .typeRef)
    (hloose : loose = true → out.1 = []) (attrs : Attrs) :
    Draws d d₂ parent (Outline.unless loose attrs kind spelling out.1, out.2) := by
  obtain ⟨hcursor, tops, all, hgrown⟩ := hin
  obtain ⟨tops', all', hgrown'⟩ := hgain.grown hgrown hp hkind hloose attrs
  exact ⟨hcursor, tops', all', hgrown'⟩

end Draws

/-- Reading a row of nodes draws the outline of the row, as the inner nodes of any node and as those
of a template. -/
structure DrawsOutline (ctx : Context) (nodes : List Node) : Prop where
  row : ∀ frame d around, d.tree.kind? frame.parent = some around →
    Draws d (buildAll ctx frame nodes d) frame.parent (outlineAll ctx around frame.detached nodes d.cursor)
  template : ∀ kind merges own beside around d, d.tree.kind? own.parent = some kind →
    d.tree.kind? beside.parent = some around → beside.detached = true →
    Draws d (buildTemplate ctx kind merges own.parent own beside false nodes d) own.parent
      (outlineTemplate ctx around kind merges own.detached nodes d.cursor)

section Node

variable {ctx : Context} {attrs : Attrs} {inner : List Node} (hinner : DrawsOutline ctx inner)
include hinner

theorem draws_template {kind : NodeKind} {merges : Bool}
    (hplan : attrs.plan = .template kind merges)
    (hm : attrs.isMention = false) (frame : Frame) (d : Draft) (around : NodeKind)
    (hparent : d.tree.kind? frame.parent = some around) :
    Draws d (build ctx frame (.mk attrs inner) d) frame.parent
      (outline ctx around frame.detached (.mk attrs inner) d.cursor) := by
  have hp := lt_size_of_kind? hparent
  have hkind : kind ≠ .typeRef := fun h => (kind?_plan_ne attrs).1 (by simp [hplan, Plan.kind?, h])
  rw [build_template ctx frame attrs inner d hplan hm,
    outline_template ctx around frame.detached attrs inner d.cursor hplan hm]
  have hgain := Draft.gains_declareTemplate ctx { d with cursor := d.cursor.afterAttrs attrs } frame
    (frame.detached || attrs.isImplicit) kind attrs hp (d.cursor.locOf attrs) (d.cursor.lastOf attrs)
  have hin := hinner.template kind merges
    ⟨d.tree.nextId, if merges then d.tree.nextId else frame.scope, frame.detached || attrs.isImplicit⟩
    { frame with detached := true } around _ (hgain.kind?_new) ((hgain.kind?_old hp).trans hparent) rfl
  rw [Draft.cursor_declareTemplate] at hin
  refine Draws.gain hgain hin hp hkind ?_ attrs
  intro hloose
  rw [hloose]
  exact (hidden_eq_nil ctx inner).2 _ _ _ _

theorem draws_declaration {kind : NodeKind} (hplan : attrs.plan = .declaration kind)
    (hm : attrs.isMention = false)
    (frame : Frame) (d : Draft) (around : NodeKind) (hparent : d.tree.kind? frame.parent = some around) :
    Draws d (build ctx frame (.mk attrs inner) d) frame.parent
      (outline ctx around frame.detached (.mk attrs inner) d.cursor) := by
  have hp := lt_size_of_kind? hparent
  have hkind : kind ≠ .typeRef := fun h => (kind?_plan_ne attrs).1 (by simp [hplan, Plan.kind?, h])
  have hloose : (frame.detached || attrs.isImplicit || (attrs.cls = "CXXRecordDecl" && around = .lambdaExpr)) =
      isLoose frame attrs d.tree := by
    simp [isLoose, hparent]
  rw [build_declaration ctx frame attrs inner d hplan hm,
    outline_declaration ctx around frame.detached attrs inner d.cursor hplan hm, hloose]
  have hgain := Draft.gains_declare ctx { d with cursor := d.cursor.afterAttrs attrs } frame
    (isLoose frame attrs d.tree) kind attrs inner hp (d.cursor.locOf attrs) (d.cursor.firstOf attrs)
    (d.cursor.lastOf attrs)
  have hin := hinner.row
    ⟨d.tree.nextId, if opensScope kind then d.tree.nextId else frame.scope, isLoose frame attrs d.tree⟩ _ kind
    hgain.kind?_new
  rw [Draft.cursor_declare] at hin
  refine Draws.gain hgain hin hp hkind ?_ attrs
  intro hloose
  rw [hloose]
  exact (hidden_eq_nil ctx inner).1 _ _

theorem draws_statement {kind : NodeKind} (hplan : attrs.plan = .statement kind)
    (frame : Frame) (d : Draft) (around : NodeKind) (hparent : d.tree.kind? frame.parent = some around) :
    Draws d (build ctx frame (.mk attrs inner) d) frame.parent
      (outline ctx around frame.detached (.mk attrs inner) d.cursor) := by
  have hp := lt_size_of_kind? hparent
  have hkind : kind ≠ .typeRef := fun h => (kind?_plan_ne attrs).1 (by simp [hplan, Plan.kind?, h])
  cases hpass : isPassedOver ctx frame (d.cursor.rangeFirst attrs) with
  | true =>
    rw [build_passedOver ctx frame attrs inner d hplan hpass,
      outline_passedOver ctx around frame.detached attrs inner d.cursor hplan hpass]
    exact Draws.of_shape_eq _ fun _ => rfl
  | false =>
    rw [build_statement ctx frame attrs inner d hplan hpass,
      outline_statement ctx around frame.detached attrs inner d.cursor hplan hpass]
    have hgain := Draft.gains_state ctx { d with cursor := d.cursor.afterRange attrs } frame kind attrs hp
      (d.cursor.rangeFirst attrs) (d.cursor.rangeLast attrs)
    have hin := hinner.row ⟨d.tree.nextId, if kind = .lambdaExpr then d.tree.nextId else frame.scope, false⟩ _ kind
      hgain.kind?_new
    rw [Draft.cursor_state] at hin
    exact Draws.gain hgain hin hp hkind (by simp) attrs

/-- One node, by its plan. -/
theorem build_draws (attrs : Attrs) (frame : Frame) (d : Draft) (around : NodeKind)
    (hparent : d.tree.kind? frame.parent = some around) :
    Draws d (build ctx frame (.mk attrs inner) d) frame.parent
      (outline ctx around frame.detached (.mk attrs inner) d.cursor) := by
  cases hplan : attrs.plan with
  | skim =>
    rw [build_skim ctx frame attrs inner d hplan,
      outline_skim ctx around frame.detached attrs inner d.cursor hplan]
    exact Draws.of_shape_eq _ fun _ => rfl
  | dissolve =>
    rw [build_dissolve ctx frame attrs inner d hplan,
      outline_dissolve ctx around frame.detached attrs inner d.cursor hplan]
    exact hinner.row frame { d with cursor := d.cursor.afterAttrs attrs } around hparent
  | template kind merges =>
    cases hm : attrs.isMention with
    | true =>
      rw [build_mention ctx frame attrs inner d hm (Or.inl ⟨kind, merges, hplan⟩),
        outline_mention ctx around frame.detached attrs inner d.cursor hm (Or.inl ⟨kind, merges, hplan⟩)]
      exact Draws.of_shape_eq _ fun _ => rfl
    | false => exact draws_template hinner hplan hm frame d around hparent
  | declaration kind =>
    cases hm : attrs.isMention with
    | true =>
      rw [build_mention ctx frame attrs inner d hm (Or.inr ⟨kind, hplan⟩),
        outline_mention ctx around frame.detached attrs inner d.cursor hm (Or.inr ⟨kind, hplan⟩)]
      exact Draws.of_shape_eq _ fun _ => rfl
    | false => exact draws_declaration hinner hplan hm frame d around hparent
  | statement kind => exact draws_statement hinner hplan frame d around hparent

/-- The pattern of a template that merges draws its contents below the template. -/
theorem merge_draws (kind : NodeKind) (own : Frame) (d : Draft)
    (hparent : d.tree.kind? own.parent = some kind) :
    Draws d (buildAll ctx own inner (d.mergePattern own.parent kind attrs inner)) own.parent
      (outlineAll ctx kind own.detached inner (d.cursor.afterAttrs attrs)) := by
  have hmerge := Draws.of_shape_eq own.parent (d.shape?_mergePattern kind attrs inner own.parent)
  have hin := hinner.row own _ kind (hmerge.kind?_eq hparent)
  rw [Draft.cursor_mergePattern] at hin
  exact hmerge.trans hin (lt_size_of_kind? hparent)

end Node

theorem drawsOutline (ctx : Context) (nodes : List Node) : DrawsOutline ctx nodes := by
  induction nodes using forest_induction with
  | nil =>
    constructor
    · intro frame d around _
      rw [buildAll_nil, outlineAll]
      exact Draws.of_shape_eq _ fun _ => rfl
    · intro kind merges own beside around d _ _ _
      rw [buildTemplate_nil, outlineTemplate]
      exact Draws.of_shape_eq _ fun _ => rfl
  | cons attrs inner rest ihInner ihRest =>
    constructor
    · intro frame d around hparent
      have hfirst := build_draws ihInner attrs frame d around hparent
      have hothers := ihRest.row frame _ around (hfirst.kind?_eq hparent)
      rw [hfirst.1] at hothers
      rw [buildAll_cons, outlineAll]
      exact hfirst.trans hothers (lt_size_of_kind? hparent)
    · intro kind merges own beside around d hown hbeside hdetached
      have hp := lt_size_of_kind? hown
      -- what follows the pattern draws nothing, and so may count as drawn below the template
      have hafter : ∀ {d₁ : Draft} {out : List Outline × LocCursor}, Draws d d₁ own.parent out →
          Draws d (buildAll ctx beside rest d₁) own.parent
            (out.1, (outlineAll ctx around true rest out.2).2) := by
        intro d₁ out hpattern
        have hrest := ihRest.row beside d₁ around (hpattern.kind?_eq hbeside)
        rw [hdetached, hpattern.1] at hrest
        have hnil := hrest.of_nil ((hidden_eq_nil ctx rest).1 around out.2) own.parent
          (lt_size_of_kind? (hpattern.kind?_eq hown))
        simpa using hpattern.trans hnil hp
      have hfirst := build_draws ihInner attrs own d kind hown
      rw [outlineTemplate]
      cases hpat : isPattern kind attrs.cls with
      | false =>
        rw [buildTemplate_before ctx attrs inner d kind merges own.parent own beside rest hpat]
        have hothers := ihRest.template kind merges own beside around _ (hfirst.kind?_eq hown)
          (hfirst.kind?_eq hbeside) hdetached
        rw [hfirst.1] at hothers
        exact hfirst.trans hothers hp
      | true =>
        cases merges with
        | false =>
          rw [buildTemplate_pattern ctx attrs inner d kind false own.parent own beside rest hpat rfl]
          exact hafter hfirst
        | true =>
          rw [buildTemplate_merge ctx attrs inner d kind true own.parent own beside rest hpat rfl]
          cases hm : attrs.isMention with
          | true => exact hafter (Draws.of_shape_eq _ fun _ => rfl)
          | false => exact hafter (merge_draws ihInner kind own d hown)

end Dump

end UnitFacts
