import UnitFacts.Proofs.Dump.Alike
import UnitFacts.Proofs.Dump.Growth
import UnitFacts.Proofs.Dump.Inventory

/-!
Reading takes in the inventory of a document. Each object on it gets the next node, which bears its kind, its
spelling and its tokens and stands in a scope with the names that the inventory gives; what the draft notes
for later is what the objects on the inventory give to note, the newest first. Nodes that are there already
keep their labels.
-/

namespace UnitFacts

open UnitFacts.Tree

namespace Dump

/-- What a draft has noted for the passes that resolve links. -/
structure Notes where
  ids : List (String × NodeId) := []
  references : List (NodeId × String) := []
  previous : List (NodeId × String) := []
  contexts : List (NodeId × String) := []
  ctorTypes : List (NodeId × String) := []
  constructs : List Construct := []
  mentions : List Mention := []

def Draft.notes (d : Draft) : Notes :=
  ⟨d.ids, d.references, d.previous, d.contexts, d.ctorTypes, d.constructs, d.mentions⟩

/-- The notes after further objects. -/
def Notes.add (ctx : Context) (notes : Notes) (entries : List Entry) : Notes where
  ids := (entries.filterMap Entry.id?).reverse ++ notes.ids
  references := (entries.filterMap Entry.reference?).reverse ++ notes.references
  previous := (entries.filterMap Entry.previous?).reverse ++ notes.previous
  contexts := (entries.filterMap Entry.context?).reverse ++ notes.contexts
  ctorTypes := (entries.filterMap Entry.ctorType?).reverse ++ notes.ctorTypes
  constructs := (entries.filterMap Entry.construct?).reverse ++ notes.constructs
  mentions := (entries.filterMap (Entry.mention? ctx)).reverse ++ notes.mentions

theorem Notes.add_nil (ctx : Context) (notes : Notes) : notes.add ctx [] = notes := by simp [add]

theorem Notes.add_add (ctx : Context) (notes : Notes) (first second : List Entry) :
    (notes.add ctx first).add ctx second = notes.add ctx (first ++ second) := by
  simp [add]

/-- What one object adds to the notes. -/
theorem Notes.add_singleton (ctx : Context) (notes : Notes) (e : Entry) :
    notes.add ctx [e] =
      ⟨e.id?.toList ++ notes.ids, e.reference?.toList ++ notes.references, e.previous?.toList ++ notes.previous,
        e.context?.toList ++ notes.contexts, e.ctorType?.toList ++ notes.ctorTypes,
        e.construct?.toList ++ notes.constructs, (e.mention? ctx).toList ++ notes.mentions⟩ := by
  have hone : ∀ {β : Type} (f : Entry → Option β), ([e].filterMap f).reverse = (f e).toList := by
    intro β f
    cases hf : f e <;> simp [hf]
  simp only [add, hone]

/-- The node of an object bears the marks of the object and stands in the scopes around it. -/
def Entry.Stands (ctx : Context) (t : Tree) (e : Entry) : Prop :=
  ∃ parent scope, t.label? e.node = some ⟨e.kind, e.spelling, parent, some scope, e.tokens ctx⟩ ∧
    parent.isSome = !e.loose ∧ t.Names scope e.scopes

theorem Entry.Stands.of_label_eq {ctx : Context} {t t' : Tree} {e : Entry} (h : e.Stands ctx t)
    (hsame : ∀ id, id < t.size → t'.label? id = t.label? id) : e.Stands ctx t' := by
  obtain ⟨parent, scope, hlabel, hparent, hnames⟩ := h
  exact ⟨parent, scope, (hsame _ (lt_size_of_label? hlabel)).trans hlabel, hparent, hnames.of_label_eq hsame⟩

theorem Entry.Stands.names {ctx : Context} {t : Tree} {e : Entry} (h : e.Stands ctx t) (hkind : e.kind ≠ .unit) :
    t.Names e.node (addName e.scopes e.spelling) := by
  obtain ⟨parent, scope, hlabel, -, hnames⟩ := h
  exact Names.inner hlabel hkind rfl hnames

theorem Entry.Stands.kind?_eq {ctx : Context} {t : Tree} {e : Entry} (h : e.Stands ctx t) :
    t.kind? e.node = some e.kind := by
  obtain ⟨parent, scope, hlabel, -⟩ := h
  rw [kind?_eq_label, hlabel]
  rfl

/-- What holds of every object inside a unit: it is an expression or a statement as its plan says, and then
attached, or it is more than the mention of a declaration; and if it has a node of its own, that is of the kind that
its plan gives, which is neither a unit nor a type reference. -/
structure Entry.Regular (e : Entry) : Prop where
  inside : e.role ≠ .unit
  planned : e.role = .statement ↔ ∃ kind, e.attrs.plan = .statement kind
  attached : e.role = .statement → e.loose = false
  full : e.role ≠ .statement → e.attrs.isMention = false
  kind?_plan : e.isNew = true → e.attrs.plan.kind? = some e.kind
  kind_ne : e.isNew = true → e.kind ≠ .typeRef ∧ e.kind ≠ .unit

/-- Reading leads from one draft to another and takes in the objects of a stock. -/
structure Takes (ctx : Context) (d d' : Draft) (stock : List Entry × Front) : Prop where
  front : d'.front = stock.2
  numbered : ∃ count, d'.tree.size = d.tree.size + count ∧
    (stock.1.filter Entry.isNew).map Entry.node = List.range' d.tree.size count
  old : ∀ id, id < d.tree.size → d'.tree.label? id = d.tree.label? id
  stands : ∀ e ∈ stock.1, e.isNew = true → e.Stands ctx d'.tree
  regular : ∀ e ∈ stock.1, e.Regular
  notes : d'.notes = d.notes.add ctx stock.1

namespace Takes

variable {ctx : Context} {d d₁ d₂ : Draft} {stock stock' : List Entry × Front}

/-- Nothing is taken in where only the cursor moves. -/
theorem none (ctx : Context) (d : Draft) (cursor : LocCursor) :
    Takes ctx d { d with cursor } ([], ⟨cursor, d.tree.nextId⟩) where
  front := rfl
  numbered := ⟨0, rfl, rfl⟩
  old _ _ := rfl
  stands := by simp
  regular := by simp
  notes := (d.notes.add_nil ctx).symm

theorem size_le (h : Takes ctx d d₁ stock) : d.tree.size ≤ d₁.tree.size := by
  obtain ⟨count, hsize, -⟩ := h.numbered
  omega

theorem trans (h : Takes ctx d d₁ stock) (h' : Takes ctx d₁ d₂ stock') :
    Takes ctx d d₂ (stock.1 ++ stock'.1, stock'.2) where
  front := h'.front
  numbered := by
    obtain ⟨count, hsize, hnodes⟩ := h.numbered
    obtain ⟨count', hsize', hnodes'⟩ := h'.numbered
    refine ⟨count + count', by omega, ?_⟩
    rw [List.filter_append, List.map_append, hnodes, hnodes', hsize]
    exact List.range'_append_1
  old id hid := (h'.old id (Nat.lt_of_lt_of_le hid h.size_le)).trans (h.old id hid)
  stands e he hnew := by
    rcases List.mem_append.mp he with hfirst | hsecond
    · exact (h.stands e hfirst hnew).of_label_eq h'.old
    · exact h'.stands e hsecond hnew
  regular := List.forall_mem_append.mpr ⟨h.regular, h'.regular⟩
  notes := by rw [h'.notes, h.notes, Notes.add_add]

theorem kind?_eq (h : Takes ctx d d₁ stock) {id : NodeId} {kind : NodeKind} (hid : d.tree.kind? id = some kind) :
    d₁.tree.kind? id = some kind := by
  obtain ⟨n, hn, -⟩ := Option.map_eq_some_iff.mp hid
  rw [← hid, kind?_eq_label, kind?_eq_label, h.old id (lt_size_of_node? hn)]

/-- An object that gets a new node. -/
theorem of_new {e : Entry} {parent : Option NodeId} {scope : NodeId} (hnode : e.node = d.tree.size)
    (hnew : e.isNew = true) (hreg : e.Regular) (hsize : d₁.tree.size = d.tree.size + 1)
    (hlabel : ∀ k, d₁.tree.label? k = if k = d.tree.size then
      some ⟨e.kind, e.spelling, parent, some scope, e.tokens ctx⟩ else d.tree.label? k)
    (hparent : parent.isSome = !e.loose) (hnames : d.tree.Names scope e.scopes)
    (hnotes : d₁.notes = d.notes.add ctx [e]) : Takes ctx d d₁ ([e], d₁.front) := by
  have hold : ∀ id, id < d.tree.size → d₁.tree.label? id = d.tree.label? id := by
    intro id hid
    rw [hlabel, if_neg (Nat.ne_of_lt hid)]
  refine ⟨rfl, ⟨1, hsize, by simp [hnew, hnode]⟩, hold, ?_, by simpa using hreg, hnotes⟩
  intro other hother _
  obtain rfl := List.mem_singleton.mp hother
  exact ⟨parent, scope, by rw [hlabel, if_pos hnode], hparent, hnames.of_label_eq hold⟩

section Scope

variable {e : Entry} {front : Front} (h : Takes ctx d d₁ ([e], front)) (hnew : e.isNew = true) {scope : NodeId}
  (hnames : d.tree.Names scope e.scopes) (opens : Prop) [Decidable opens]
include h hnew hnames

/-- What follows a new object stands in its scope or still in the scope around it. -/
theorem names_scope :
    d₁.tree.Names (if opens then e.node else scope) (if opens then addName e.scopes e.spelling else e.scopes) := by
  have hmem := List.mem_singleton_self e
  by_cases hopens : opens
  · simpa only [if_pos hopens] using (h.stands e hmem hnew).names ((h.regular e hmem).kind_ne hnew).2
  · simpa only [if_neg hopens] using hnames.of_label_eq h.old

/-- A scope without a name adds none. -/
theorem names_unnamed (hunnamed : opens → e.spelling = "") :
    d₁.tree.Names (if opens then e.node else scope) e.scopes := by
  have hscope := h.names_scope hnew hnames opens
  by_cases hopens : opens
  · simpa only [if_pos hopens, hunnamed hopens, addName, if_true] using hscope
  · simpa only [if_neg hopens] using hscope

end Scope

end Takes

section Steps

variable (ctx : Context) (d : Draft) (frame : Frame) (detached : Bool) (kind : NodeKind) (attrs : Attrs)
  (inner : List Node) (scopes : List String) (id k : NodeId)

@[simp] theorem label?_placeAt (t : Tree) (path : String) (line col : UInt32) :
    (placeAt ctx t id path line col).label? k = t.label? k := by
  rw [placeAt, label?_place, withFile]
  split
  · rfl
  · exact t.label?_addFile k path _

namespace Draft

theorem label?_create (hp : frame.parent < d.tree.size) (spelling : String) :
    (d.create frame detached kind spelling).2.tree.label? k =
      if k = d.tree.size then
        some ⟨kind, spelling, if detached then none else some frame.parent, some frame.scope, []⟩
      else d.tree.label? k := by
  have hadded : (if detached then (d.tree.addLoose (some frame.scope) kind spelling).2
      else (d.tree.attach frame.parent kind spelling).2).label? k =
        if k = d.tree.size then
          some ⟨kind, spelling, if detached then none else some frame.parent,
            if detached then some frame.scope else d.tree.scopeFor? frame.parent, []⟩
        else d.tree.label? k := by
    cases detached with
    | true => exact d.tree.label?_addLoose k (some frame.scope) kind spelling
    | false => exact d.tree.label?_attach k hp kind spelling
  rw [snd_create]
  refine (label?_setSemanticParent _ d.tree.size k _).trans ?_
  rw [hadded]
  by_cases hk : k = d.tree.size
  · simp [hk]
  · simp [hk, Ne.symm hk]

@[simp] theorem label?_place (at? end? : Option Loc) :
    (d.place ctx id at? end?).tree.label? k = d.tree.label? k := by
  cases at? <;> cases end? <;> simp [place, edit]

@[simp] theorem label?_setEnd (end? : Option Loc) :
    (d.setEnd id end?).tree.label? k = d.tree.label? k := by
  cases end? <;> simp [setEnd, edit]

@[simp] theorem label?_markIf (cond : Bool) : (d.markIf id cond).tree.label? k = d.tree.label? k := by
  cases cond <;> simp [markIf, edit]

theorem label?_declareTemplate (hp : frame.parent < d.tree.size) (loc? last? : Option Loc) :
    (d.declareTemplate ctx frame detached kind attrs loc? last?).2.tree.label? k =
      if k = d.tree.size then
        some ⟨kind, attrs.name, if detached then none else some frame.parent, some frame.scope, []⟩
      else d.tree.label? k := by
  rw [snd_declareTemplate, tree_noteLinks, label?_place, tree_register, d.label?_create frame detached kind k hp]

theorem label?_declare (hp : frame.parent < d.tree.size) (loc? first? last? : Option Loc) :
    (d.declare ctx frame detached kind attrs inner loc? first? last?).2.tree.label? k =
      if k = d.tree.size then
        some ⟨kind, attrs.name, if detached then none else some frame.parent, some frame.scope, []⟩
      else d.tree.label? k := by
  rw [declare_eq]
  exact (label?_markIf _ _ k _).trans (d.label?_declareTemplate ctx frame detached kind attrs k hp loc? last?)

theorem label?_mergePattern : (d.mergePattern id kind attrs inner).tree.label? k = d.tree.label? k := by
  rw [mergePattern_eq, label?_markIf, tree_noteLinks, label?_setEnd, tree_register]

theorem label?_state (hp : frame.parent < d.tree.size) (first? last? : Option Loc) :
    (d.state ctx frame kind attrs first? last?).2.tree.label? k =
      if k = d.tree.size then
        some ⟨kind, statementSpelling kind attrs, some frame.parent, some frame.scope,
          if isOperator kind then operatorTokens ctx attrs first? last? else []⟩
      else d.tree.label? k := by
  have hplace : ((((d.create frame false kind (statementSpelling kind attrs)).2.register attrs d.tree.nextId).place ctx
      d.tree.nextId (statementPosition ctx kind attrs first? last?) last?).tree).label? k =
        if k = d.tree.size then
          some ⟨kind, statementSpelling kind attrs, some frame.parent, some frame.scope, []⟩
        else d.tree.label? k := by
    rw [label?_place, tree_register, d.label?_create frame false kind k hp]
    rfl
  rw [snd_state]
  split
  · refine (label?_setTokens _ d.tree.size k _).trans ?_
    rw [hplace]
    by_cases hk : k = d.tree.size
    · simp [hk]
    · simp [hk, Ne.symm hk]
  · exact hplace

/-! ### What is noted -/

theorem notes_edit (change : Tree → Tree) : (d.edit change).notes = d.notes := rfl

theorem notes_markIf (cond : Bool) : (d.markIf id cond).notes = d.notes := by
  unfold markIf
  split <;> rfl

theorem notes_setEnd (end? : Option Loc) : (d.setEnd id end?).notes = d.notes := by
  cases end? <;> rfl

theorem notes_register :
    (d.register attrs id).notes =
      { d.notes with ids := (attrs.id.map fun name => (name, id)).toList ++ d.notes.ids } := by
  unfold register
  cases attrs.id <;> rfl

theorem notes_noteLinks :
    (d.noteLinks attrs id).notes =
      { d.notes with
        previous := (attrs.previousDecl.map fun name => (id, name)).toList ++ d.notes.previous
        contexts := (attrs.parentContext.map fun name => (id, name)).toList ++ d.notes.contexts } := rfl

theorem notes_place (at? end? : Option Loc) : (d.place ctx id at? end?).notes = d.notes := rfl

theorem notes_declareTemplate (loose : Bool) (cursor : LocCursor) (loc? last? : Option Loc) :
    (d.declareTemplate ctx frame detached kind attrs loc? last?).2.notes =
      d.notes.add ctx [⟨.template, attrs, d.tree.nextId, kind, loose, scopes, cursor⟩] := by
  rw [snd_declareTemplate, notes_noteLinks, notes_place, notes_register, Notes.add_singleton]
  rfl

theorem notes_declare (cursor : LocCursor) :
    (d.declare ctx frame detached kind attrs inner (cursor.locOf attrs) (cursor.firstOf attrs)
      (cursor.lastOf attrs)).2.notes =
      d.notes.add ctx [⟨.declaration, attrs, d.tree.nextId, kind, detached, scopes, cursor⟩] := by
  have htemplate := d.notes_declareTemplate ctx frame detached kind attrs scopes detached cursor
    (cursor.locOf attrs) (cursor.lastOf attrs)
  rw [Notes.add_singleton, ← notes_markIf _ d.tree.nextId
    (isDefining kind attrs inner || (kind = .enumDecl && closesBody ctx (cursor.lastOf attrs)))] at htemplate
  have hnoted : ∀ (d₁ : Draft) mentions ctorTypes,
      ({ d₁ with mentions := mentions ++ d₁.mentions, ctorTypes := ctorTypes ++ d₁.ctorTypes } : Draft).notes =
        { d₁.notes with
          mentions := mentions ++ d₁.notes.mentions
          ctorTypes := ctorTypes ++ d₁.notes.ctorTypes } := fun _ _ _ => rfl
  have hctor : ((if kind = .constructor then attrs.qualType else none).map fun type => (d.tree.nextId, type)) =
      Entry.ctorType? ⟨.declaration, attrs, d.tree.nextId, kind, detached, scopes, cursor⟩ := by
    by_cases hkind : kind = .constructor <;> simp [Entry.ctorType?, hkind]
  rw [declare_eq, hnoted, htemplate, Notes.add_singleton, hctor]
  cases detached <;> rfl

theorem notes_mergePattern (loose : Bool) :
    (d.mergePattern id kind attrs inner).notes =
      d.notes.add ctx [⟨.pattern, attrs, id, kind, loose, scopes, d.cursor⟩] := by
  rw [mergePattern_eq, notes_markIf, notes_noteLinks, notes_setEnd, notes_register, Notes.add_singleton]
  rfl

theorem notes_state (loose : Bool) (cursor : LocCursor) (first? last? : Option Loc) :
    (d.state ctx frame kind attrs first? last?).2.notes =
      d.notes.add ctx [⟨.statement, attrs, d.tree.nextId, kind, loose, scopes, cursor⟩] := by
  have hregister := (d.create frame false kind (statementSpelling kind attrs)).2.notes_register attrs d.tree.nextId
  have hlinks : ∀ (d₁ : Draft) references constructs,
      ({ d₁ with
          references := references ++ d₁.references
          constructs := constructs ++ d₁.constructs } : Draft).notes =
        { d₁.notes with
          references := references ++ d₁.notes.references
          constructs := constructs ++ d₁.notes.constructs } := fun _ _ _ => rfl
  rw [Notes.add_singleton, snd_state]
  split
  · rw [notes_edit, hlinks, notes_place, hregister]
    rfl
  · rw [hlinks, notes_place, hregister]
    rfl

end Draft

end Steps

section Steps

variable (ctx : Context) {d : Draft} {frame : Frame} {scopes : List String} (hp : frame.parent < d.tree.size)
  (hnames : d.tree.Names frame.scope scopes)
include hp hnames

theorem takes_declareTemplate (detached : Bool) {attrs : Attrs} {kind : NodeKind} {merges : Bool}
    (hplan : attrs.plan = .template kind merges) (hm : attrs.isMention = false) :
    Takes ctx d ({ d with cursor := d.cursor.afterAttrs attrs }.declareTemplate ctx frame detached kind attrs
        (d.cursor.locOf attrs) (d.cursor.lastOf attrs)).2
      ([⟨.template, attrs, d.tree.nextId, kind, detached, scopes, d.cursor⟩],
        ⟨d.cursor.afterAttrs attrs, d.tree.nextId + 1⟩) := by
  let moved : Draft := { d with cursor := d.cursor.afterAttrs attrs }
  have hfront : (moved.declareTemplate ctx frame detached kind attrs (d.cursor.locOf attrs)
      (d.cursor.lastOf attrs)).2.front = ⟨d.cursor.afterAttrs attrs, d.tree.nextId + 1⟩ :=
    congrArg₂ Front.mk (Draft.cursor_declareTemplate ..) (Draft.size_declareTemplate ..)
  rw [← hfront]
  have hkind : kind ≠ .typeRef ∧ kind ≠ .unit := by simpa [hplan, Plan.kind?] using kind?_plan_ne attrs
  refine Takes.of_new rfl rfl
    ⟨by simp, by simp [hplan], by simp, fun _ => hm, fun _ => by rw [hplan]; rfl, fun _ => hkind⟩
    (Draft.size_declareTemplate ..)
    (fun k => moved.label?_declareTemplate ctx frame detached kind attrs k hp _ _) (by cases detached <;> rfl) hnames
    (moved.notes_declareTemplate ctx frame detached kind attrs scopes detached d.cursor _ _)

theorem takes_declare (detached : Bool) {attrs : Attrs} {kind : NodeKind} (hplan : attrs.plan = .declaration kind)
    (hm : attrs.isMention = false) (inner : List Node) :
    Takes ctx d ({ d with cursor := d.cursor.afterAttrs attrs }.declare ctx frame detached kind attrs inner
        (d.cursor.locOf attrs) (d.cursor.firstOf attrs) (d.cursor.lastOf attrs)).2
      ([⟨.declaration, attrs, d.tree.nextId, kind, detached, scopes, d.cursor⟩],
        ⟨d.cursor.afterAttrs attrs, d.tree.nextId + 1⟩) := by
  let moved : Draft := { d with cursor := d.cursor.afterAttrs attrs }
  have hfront : (moved.declare ctx frame detached kind attrs inner (d.cursor.locOf attrs) (d.cursor.firstOf attrs)
      (d.cursor.lastOf attrs)).2.front = ⟨d.cursor.afterAttrs attrs, d.tree.nextId + 1⟩ :=
    congrArg₂ Front.mk (Draft.cursor_declare ..) (Draft.size_declare ..)
  rw [← hfront]
  have hkind : kind ≠ .typeRef ∧ kind ≠ .unit := by simpa [hplan, Plan.kind?] using kind?_plan_ne attrs
  refine Takes.of_new rfl rfl
    ⟨by simp, by simp [hplan], by simp, fun _ => hm, fun _ => by rw [hplan]; rfl, fun _ => hkind⟩
    (Draft.size_declare ..)
    (fun k => moved.label?_declare ctx frame detached kind attrs inner k hp _ _ _) (by cases detached <;> rfl) hnames
    (moved.notes_declare ctx frame detached kind attrs inner scopes d.cursor)

theorem takes_state {attrs : Attrs} {kind : NodeKind} (hplan : attrs.plan = .statement kind) :
    Takes ctx d ({ d with cursor := d.cursor.afterRange attrs }.state ctx frame kind attrs
        (d.cursor.rangeFirst attrs) (d.cursor.rangeLast attrs)).2
      ([⟨.statement, attrs, d.tree.nextId, kind, false, scopes, d.cursor⟩],
        ⟨d.cursor.afterRange attrs, d.tree.nextId + 1⟩) := by
  let moved : Draft := { d with cursor := d.cursor.afterRange attrs }
  have hfront : (moved.state ctx frame kind attrs (d.cursor.rangeFirst attrs) (d.cursor.rangeLast attrs)).2.front =
      ⟨d.cursor.afterRange attrs, d.tree.nextId + 1⟩ :=
    congrArg₂ Front.mk (Draft.cursor_state ..) (Draft.size_state ..)
  rw [← hfront]
  have hkind : kind ≠ .typeRef ∧ kind ≠ .unit := by simpa [hplan, Plan.kind?] using kind?_plan_ne attrs
  refine Takes.of_new rfl rfl
    ⟨by simp, by simp [hplan], fun _ => rfl, by simp, fun _ => by rw [hplan]; rfl, fun _ => hkind⟩
    (Draft.size_state ..)
    (fun k => moved.label?_state ctx frame kind attrs k hp _ _) rfl hnames
    (moved.notes_state ctx frame kind attrs scopes false d.cursor _ _)

end Steps

/-- A pattern is taken into the node of its template. -/
theorem takes_mergePattern (ctx : Context) (d : Draft) (template : NodeId) {kind : NodeKind} {attrs : Attrs}
    (hpat : isPattern kind attrs.cls = true) (hm : attrs.isMention = false) (inner : List Node) (loose : Bool)
    (scopes : List String) :
    Takes ctx d (d.mergePattern template kind attrs inner)
      ([⟨.pattern, attrs, template, kind, loose, scopes, d.cursor⟩],
        ⟨d.cursor.afterAttrs attrs, d.tree.nextId⟩) where
  front := congrArg₂ Front.mk (Draft.cursor_mergePattern ..) (Draft.size_mergePattern ..)
  numbered := ⟨0, Draft.size_mergePattern .., rfl⟩
  old id _ := d.label?_mergePattern kind attrs inner template id
  stands := by simp [Entry.isNew]
  regular := by
    obtain ⟨pattern, hplan⟩ := plan_of_isPattern kind attrs hpat
    rw [List.forall_mem_singleton]
    exact ⟨by simp, by simp [hplan], by simp, fun _ => hm, by simp [Entry.isNew], by simp [Entry.isNew]⟩
  notes := d.notes_mergePattern ctx kind attrs inner scopes template loose

/-- Reading a row of nodes takes in the inventory of the row, as the inner nodes of any node and as those of a
template. -/
structure TakesStock (ctx : Context) (nodes : List Node) : Prop where
  row : ∀ frame d around scopes, d.tree.kind? frame.parent = some around → d.tree.Names frame.scope scopes →
    Takes ctx d (buildAll ctx frame nodes d) (inventoryAll ctx around frame.detached scopes nodes d.front)
  template : ∀ kind merges own beside around scopes names d, d.tree.kind? own.parent = some kind →
    d.tree.kind? beside.parent = some around → beside.detached = true → d.tree.Names beside.scope scopes →
    d.tree.Names own.scope names →
    Takes ctx d (buildTemplate ctx kind merges own.parent own beside false nodes d)
      (inventoryTemplate ctx around kind merges own.parent own.detached scopes names nodes d.front)

section Node

variable {ctx : Context} {attrs : Attrs} {inner : List Node} (hinner : TakesStock ctx inner)
include hinner

theorem takes_template {kind : NodeKind} {merges : Bool} (hplan : attrs.plan = .template kind merges)
    (hm : attrs.isMention = false) (frame : Frame) (d : Draft) (around : NodeKind) (scopes : List String)
    (hparent : d.tree.kind? frame.parent = some around) (hnames : d.tree.Names frame.scope scopes) :
    Takes ctx d (build ctx frame (.mk attrs inner) d)
      (inventory ctx around frame.detached scopes (.mk attrs inner) d.front) := by
  have hp := lt_size_of_kind? hparent
  rw [build_template ctx frame attrs inner d hplan hm,
    inventory_template ctx around frame.detached scopes attrs inner d.front hplan hm]
  have hstep := takes_declareTemplate ctx hp hnames (frame.detached || attrs.isImplicit) hplan hm
  have hnode := hstep.stands _ (List.mem_singleton_self _) rfl
  have hown := hstep.names_scope rfl hnames (merges = true)
  have hin := hinner.template kind merges
    ⟨d.tree.nextId, if merges then d.tree.nextId else frame.scope, frame.detached || attrs.isImplicit⟩
    { frame with detached := true } around scopes _ _ hnode.kind?_eq (hstep.kind?_eq hparent) rfl
    (hnames.of_label_eq hstep.old) hown
  rw [hstep.front] at hin
  exact hstep.trans hin

theorem takes_declaration {kind : NodeKind} (hplan : attrs.plan = .declaration kind)
    (hm : attrs.isMention = false) (frame : Frame) (d : Draft) (around : NodeKind) (scopes : List String)
    (hparent : d.tree.kind? frame.parent = some around) (hnames : d.tree.Names frame.scope scopes) :
    Takes ctx d (build ctx frame (.mk attrs inner) d)
      (inventory ctx around frame.detached scopes (.mk attrs inner) d.front) := by
  have hp := lt_size_of_kind? hparent
  have hloose : (frame.detached || attrs.isImplicit || (attrs.cls = "CXXRecordDecl" && around = .lambdaExpr)) =
      isLoose frame attrs d.tree := by
    simp [isLoose, hparent]
  rw [build_declaration ctx frame attrs inner d hplan hm,
    inventory_declaration ctx around frame.detached scopes attrs inner d.front hplan hm, hloose]
  have hstep := takes_declare ctx hp hnames (isLoose frame attrs d.tree) hplan hm inner
  have hnode := hstep.stands _ (List.mem_singleton_self _) rfl
  have hown := hstep.names_scope rfl hnames (opensScope kind = true)
  have hin := hinner.row
    ⟨d.tree.nextId, if opensScope kind then d.tree.nextId else frame.scope, isLoose frame attrs d.tree⟩ _ kind _
    hnode.kind?_eq hown
  rw [hstep.front] at hin
  exact hstep.trans hin

theorem takes_statement {kind : NodeKind} (hplan : attrs.plan = .statement kind) (frame : Frame) (d : Draft)
    (around : NodeKind) (scopes : List String) (hparent : d.tree.kind? frame.parent = some around)
    (hnames : d.tree.Names frame.scope scopes) :
    Takes ctx d (build ctx frame (.mk attrs inner) d)
      (inventory ctx around frame.detached scopes (.mk attrs inner) d.front) := by
  have hp := lt_size_of_kind? hparent
  cases hpass : isPassedOver ctx frame (d.cursor.rangeFirst attrs) with
  | true =>
    rw [build_passedOver ctx frame attrs inner d hplan hpass,
      inventory_passedOver ctx around frame.detached scopes attrs inner d.front hplan hpass]
    exact Takes.none ctx d _
  | false =>
    rw [build_statement ctx frame attrs inner d hplan hpass,
      inventory_statement ctx around frame.detached scopes attrs inner d.front hplan hpass]
    have hstep := takes_state ctx hp hnames hplan
    have hnode := hstep.stands _ (List.mem_singleton_self _) rfl
    have hown := hstep.names_unnamed rfl hnames (kind = .lambdaExpr) (by rintro rfl; rfl)
    have hin := hinner.row
      ⟨d.tree.nextId, if kind = .lambdaExpr then d.tree.nextId else frame.scope, false⟩ _ kind _
      hnode.kind?_eq hown
    rw [hstep.front] at hin
    exact hstep.trans hin

/-- One node, by its plan. -/
theorem build_takes (attrs : Attrs) (frame : Frame) (d : Draft) (around : NodeKind) (scopes : List String)
    (hparent : d.tree.kind? frame.parent = some around) (hnames : d.tree.Names frame.scope scopes) :
    Takes ctx d (build ctx frame (.mk attrs inner) d)
      (inventory ctx around frame.detached scopes (.mk attrs inner) d.front) := by
  cases hplan : attrs.plan with
  | skim =>
    rw [build_skim ctx frame attrs inner d hplan,
      inventory_skim ctx around frame.detached scopes attrs inner d.front hplan]
    exact Takes.none ctx d _
  | dissolve =>
    rw [build_dissolve ctx frame attrs inner d hplan,
      inventory_dissolve ctx around frame.detached scopes attrs inner d.front hplan]
    have hmoved := Takes.none ctx d (d.cursor.afterAttrs attrs)
    have hin := hinner.row frame _ around scopes (hmoved.kind?_eq hparent) (hnames.of_label_eq hmoved.old)
    exact hmoved.trans hin
  | template kind merges =>
    cases hm : attrs.isMention with
    | true =>
      rw [build_mention ctx frame attrs inner d hm (Or.inl ⟨kind, merges, hplan⟩),
        inventory_mention ctx around frame.detached scopes attrs inner d.front hm (Or.inl ⟨kind, merges, hplan⟩)]
      exact Takes.none ctx d d.cursor
    | false => exact takes_template hinner hplan hm frame d around scopes hparent hnames
  | declaration kind =>
    cases hm : attrs.isMention with
    | true =>
      rw [build_mention ctx frame attrs inner d hm (Or.inr ⟨kind, hplan⟩),
        inventory_mention ctx around frame.detached scopes attrs inner d.front hm (Or.inr ⟨kind, hplan⟩)]
      exact Takes.none ctx d d.cursor
    | false => exact takes_declaration hinner hplan hm frame d around scopes hparent hnames
  | statement kind => exact takes_statement hinner hplan frame d around scopes hparent hnames

/-- The pattern of a template that merges. -/
theorem merge_takes {kind : NodeKind} (hpat : isPattern kind attrs.cls = true) (hm : attrs.isMention = false)
    (own : Frame) (d : Draft) (scopes names : List String) (hparent : d.tree.kind? own.parent = some kind)
    (hnames : d.tree.Names own.scope names) :
    Takes ctx d (buildAll ctx own inner (d.mergePattern own.parent kind attrs inner))
      (let inside := inventoryAll ctx kind own.detached names inner ⟨d.cursor.afterAttrs attrs, d.tree.nextId⟩
      (⟨.pattern, attrs, own.parent, kind, own.detached, scopes, d.cursor⟩ :: inside.1, inside.2)) := by
  have hmerge := takes_mergePattern ctx d own.parent hpat hm inner own.detached scopes
  have hin := hinner.row own _ kind names (hmerge.kind?_eq hparent) (hnames.of_label_eq hmerge.old)
  rw [hmerge.front] at hin
  exact hmerge.trans hin

end Node

theorem takesStock (ctx : Context) (nodes : List Node) : TakesStock ctx nodes := by
  induction nodes using forest_induction with
  | nil =>
    constructor
    · intro frame d around scopes _ _
      rw [buildAll_nil, inventoryAll]
      exact Takes.none ctx d d.cursor
    · intro kind merges own beside around scopes names d _ _ _ _ _
      rw [buildTemplate_nil, inventoryTemplate]
      exact Takes.none ctx d d.cursor
  | cons attrs inner rest ihInner ihRest =>
    constructor
    · intro frame d around scopes hparent hnames
      have hfirst := build_takes ihInner attrs frame d around scopes hparent hnames
      have hothers := ihRest.row frame _ around scopes (hfirst.kind?_eq hparent) (hnames.of_label_eq hfirst.old)
      rw [hfirst.front] at hothers
      rw [buildAll_cons, inventoryAll]
      exact hfirst.trans hothers
    · intro kind merges own beside around scopes names d hown hbeside hdetached hscope hnames
      -- what follows the pattern is read beside the template
      have hafter : ∀ {d₁ : Draft} {stock : List Entry × Front}, Takes ctx d d₁ stock →
          Takes ctx d (buildAll ctx beside rest d₁)
            (let others := inventoryAll ctx around true scopes rest stock.2
            (stock.1 ++ others.1, others.2)) := by
        intro d₁ stock hpattern
        have hothers := ihRest.row beside d₁ around scopes (hpattern.kind?_eq hbeside)
          (hscope.of_label_eq hpattern.old)
        rw [hdetached, hpattern.front] at hothers
        exact hpattern.trans hothers
      have hfirst := build_takes ihInner attrs own d kind names hown hnames
      rw [inventoryTemplate]
      cases hpat : isPattern kind attrs.cls with
      | false =>
        rw [buildTemplate_before ctx attrs inner d kind merges own.parent own beside rest hpat]
        have hothers := ihRest.template kind merges own beside around scopes names _ (hfirst.kind?_eq hown)
          (hfirst.kind?_eq hbeside) hdetached (hscope.of_label_eq hfirst.old) (hnames.of_label_eq hfirst.old)
        rw [hfirst.front] at hothers
        exact hfirst.trans hothers
      | true =>
        cases merges with
        | false =>
          rw [buildTemplate_pattern ctx attrs inner d kind false own.parent own beside rest hpat rfl]
          exact hafter hfirst
        | true =>
          rw [buildTemplate_merge ctx attrs inner d kind true own.parent own beside rest hpat rfl]
          cases hm : attrs.isMention with
          | true => exact hafter (Takes.none ctx d d.cursor)
          | false => exact hafter (merge_takes ihInner hpat hm own d scopes names hown hnames)

/-! ### A whole unit -/

section Unit

variable (ctx : Context) (attrs : Attrs) (inner : List Node)

theorem takes_buildRoot :
    Takes ctx (startDraft ctx attrs) (buildRoot ctx (.mk attrs inner))
      (inventoryAll ctx .unit false [] inner ⟨LocCursor.afterAttrs {} attrs, 1⟩) := by
  have htree : (startDraft ctx attrs).tree = Tree.start ctx.mainFile := Draft.tree_register ..
  have hfront : (startDraft ctx attrs).front = ⟨LocCursor.afterAttrs {} attrs, 1⟩ :=
    congrArg₂ Front.mk (Draft.cursor_register ..) (size_startDraft ctx attrs)
  rw [buildRoot_eq, ← hfront]
  exact (takesStock ctx inner).row ⟨0, 0, false⟩ (startDraft ctx attrs) .unit [] (by rw [htree]; rfl)
    (.unit (by rw [htree]; rfl) rfl)

/-- All that is noted of a unit. -/
theorem notes_buildRoot :
    (buildRoot ctx (.mk attrs inner)).notes =
      Notes.add ctx {} (unitInventory ctx attrs inner) := by
  have hstart : (startDraft ctx attrs).notes =
      Notes.add ctx {} [⟨.unit, attrs, 0, .unit, false, [], {}⟩] := by
    rw [startDraft, Draft.notes_register, Notes.add_singleton]
    rfl
  rw [(takes_buildRoot ctx attrs inner).notes, hstart, Notes.add_add]
  rfl

theorem ids_buildRoot :
    (buildRoot ctx (.mk attrs inner)).ids = ((unitInventory ctx attrs inner).filterMap Entry.id?).reverse :=
  (congrArg Notes.ids (notes_buildRoot ctx attrs inner)).trans (List.append_nil _)

theorem references_buildRoot :
    (buildRoot ctx (.mk attrs inner)).references =
      ((unitInventory ctx attrs inner).filterMap Entry.reference?).reverse :=
  (congrArg Notes.references (notes_buildRoot ctx attrs inner)).trans (List.append_nil _)

theorem previous_buildRoot :
    (buildRoot ctx (.mk attrs inner)).previous =
      ((unitInventory ctx attrs inner).filterMap Entry.previous?).reverse :=
  (congrArg Notes.previous (notes_buildRoot ctx attrs inner)).trans (List.append_nil _)

theorem contexts_buildRoot :
    (buildRoot ctx (.mk attrs inner)).contexts = ((unitInventory ctx attrs inner).filterMap Entry.context?).reverse :=
  (congrArg Notes.contexts (notes_buildRoot ctx attrs inner)).trans (List.append_nil _)

theorem ctorTypes_buildRoot :
    (buildRoot ctx (.mk attrs inner)).ctorTypes =
      ((unitInventory ctx attrs inner).filterMap Entry.ctorType?).reverse :=
  (congrArg Notes.ctorTypes (notes_buildRoot ctx attrs inner)).trans (List.append_nil _)

theorem constructs_buildRoot :
    (buildRoot ctx (.mk attrs inner)).constructs =
      ((unitInventory ctx attrs inner).filterMap Entry.construct?).reverse :=
  (congrArg Notes.constructs (notes_buildRoot ctx attrs inner)).trans (List.append_nil _)

theorem mentions_buildRoot :
    (buildRoot ctx (.mk attrs inner)).mentions =
      ((unitInventory ctx attrs inner).filterMap (Entry.mention? ctx)).reverse :=
  (congrArg Notes.mentions (notes_buildRoot ctx attrs inner)).trans (List.append_nil _)

/-- The nodes of a unit are numbered as its objects come. -/
theorem numbered_unitInventory :
    ((unitInventory ctx attrs inner).filter Entry.isNew).map Entry.node =
      List.range (buildRoot ctx (.mk attrs inner)).tree.size := by
  obtain ⟨count, hsize, hnodes⟩ := (takes_buildRoot ctx attrs inner).numbered
  rw [size_startDraft] at hsize hnodes
  rw [unitInventory, List.filter_cons_of_pos rfl, List.map_cons, hnodes, hsize, Nat.add_comm, List.range_eq_range',
    List.range'_succ]

variable {ctx attrs inner} {e o : Entry}

theorem mem_inside (he : e ∈ unitInventory ctx attrs inner) (hrole : e.role ≠ .unit) :
    e ∈ (inventoryAll ctx .unit false [] inner ⟨LocCursor.afterAttrs {} attrs, 1⟩).1 := by
  rcases List.mem_cons.mp he with rfl | hinside
  · exact absurd rfl hrole
  · exact hinside

/-- Every object inside a unit that has a node of its own stands in the tree that is read. -/
theorem Entry.stands_of_mem (he : e ∈ unitInventory ctx attrs inner) (hrole : e.role ≠ .unit)
    (hnew : e.isNew = true) : e.Stands ctx (buildRoot ctx (.mk attrs inner)).tree :=
  (takes_buildRoot ctx attrs inner).stands e (mem_inside he hrole) hnew

theorem Entry.regular_of_mem (he : e ∈ unitInventory ctx attrs inner) (hrole : e.role ≠ .unit) : e.Regular :=
  (takes_buildRoot ctx attrs inner).regular e (mem_inside he hrole)

theorem Entry.role_ne_unit_of_kind (he : e ∈ unitInventory ctx attrs inner) (hkind : e.kind ≠ .unit) :
    e.role ≠ .unit := by
  rcases List.mem_cons.mp he with rfl | hinside
  · exact absurd rfl hkind
  · exact ((takes_buildRoot ctx attrs inner).regular e hinside).inside

/-- What gets the node of a declaration is a declaration or a template. -/
theorem Entry.declares_of_isDeclaration (he : e ∈ unitInventory ctx attrs inner) (hnew : e.isNew = true)
    (hkind : e.kind.isDeclaration = true) (hunit : e.kind ≠ .unit) : e.declares = true := by
  have hinside := Entry.role_ne_unit_of_kind he hunit
  have hregular := Entry.regular_of_mem he hinside
  cases hrole : e.role with
  | unit => exact absurd hrole hinside
  | declaration => simp [declares, hrole]
  | template => simp [declares, hrole]
  | pattern => simp [isNew, hrole] at hnew
  | statement =>
    obtain ⟨kind, hplan⟩ := hregular.planned.mp hrole
    have hsame := hregular.kind?_plan hnew
    rw [hplan] at hsame
    obtain rfl := Option.some.inj hsame
    rw [isDeclaration_of_plan_statement hplan] at hkind
    cases hkind

/-- An object that is read as a pattern may be taken for its template. -/
theorem Entry.exists_new_of_mem (he : e ∈ unitInventory ctx attrs inner) :
    ∃ o ∈ unitInventory ctx attrs inner, o.isNew = true ∧ o.node = e.node ∧ o.kind = e.kind ∧
      (e.role ≠ .unit → o.role ≠ .unit ∧ o.loose = e.loose) := by
  by_cases hnew : e.isNew = true
  · exact ⟨e, he, hnew, rfl, rfl, fun hrole => ⟨hrole, rfl⟩⟩
  · have hrole : e.role = .pattern := by simpa [isNew] using hnew
    obtain ⟨o, ho, htemplate, hnode, hkind, hloose, -⟩ := exists_template_of_pattern he hrole
    exact ⟨o, ho, by simp [isNew, htemplate], hnode, hkind, fun _ => ⟨by simp [htemplate], hloose⟩⟩

theorem Entry.kind?_of_mem (he : e ∈ unitInventory ctx attrs inner) :
    (buildRoot ctx (.mk attrs inner)).tree.kind? e.node = some e.kind := by
  obtain ⟨o, ho, hnew, hnode, hkind, -⟩ := Entry.exists_new_of_mem he
  rw [← hnode, ← hkind]
  rcases List.mem_cons.mp ho with rfl | hinside
  · refine (takes_buildRoot ctx attrs inner).kind?_eq ?_
    rw [startDraft, Draft.tree_register]
    rfl
  · exact ((takes_buildRoot ctx attrs inner).stands o hinside hnew).kind?_eq

theorem Entry.attached_of_mem (he : e ∈ unitInventory ctx attrs inner) (hrole : e.role ≠ .unit) :
    ((buildRoot ctx (.mk attrs inner)).tree.lexicalParent? e.node).isSome = !e.loose := by
  obtain ⟨o, ho, hnew, hnode, -, hinside⟩ := Entry.exists_new_of_mem he
  obtain ⟨parent, scope, hlabel, hparent, -⟩ := Entry.stands_of_mem ho (hinside hrole).1 hnew
  rw [← hnode, lexicalParent?_eq_label, hlabel, Option.bind_some, hparent, (hinside hrole).2]

/-- No two objects share a node, the patterns of templates aside. -/
theorem Entry.eq_of_node_eq (he : e ∈ unitInventory ctx attrs inner) (ho : o ∈ unitInventory ctx attrs inner)
    (hnew : e.isNew = true) (hnew' : o.isNew = true) (hnode : e.node = o.node) : e = o := by
  have hnodup : (((unitInventory ctx attrs inner).filter Entry.isNew).map Entry.node).Nodup := by
    rw [numbered_unitInventory]
    exact List.nodup_range
  exact List.inj_on_of_nodup_map hnodup (List.mem_filter.mpr ⟨he, hnew⟩) (List.mem_filter.mpr ⟨ho, hnew'⟩) hnode

end Unit

end Dump

end UnitFacts
