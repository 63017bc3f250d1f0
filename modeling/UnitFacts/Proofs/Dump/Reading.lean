import UnitFacts.Dump.Build
import UnitFacts.Proofs.Tree.Table

/-!
How a dump is read. The nodes of a document are its objects, each with the objects among its inner items;
one equation for each plan says what becomes of a node, with the locations of the node named;
`forest_induction` is the induction over the rows of nodes that make up a document; and `StepClosed`
collects what the single steps have to keep so that reading a whole row keeps it.
-/

namespace UnitFacts.Dump

/-! ### The nodes of a document -/

/-- What stands inside an object. -/
def innerItems (members : List (String × Json)) : List Json :=
  ((Json.lookup "inner" members).bind Json.items?).getD []

theorem Node.ofJson?_obj (members : List (String × Json)) :
    Node.ofJson? (.obj members) = some (.mk (.ofJson (.obj members)) (innerOf members)) := by
  rw [Node.ofJson?]

theorem Node.ofJson?_eq_none {value : Json} (h : value.members? = none) : Node.ofJson? value = none := by
  cases value with
  | obj members => cases h
  | _ => rw [Node.ofJson?]; simp

theorem nodesOf_eq (items : List Json) : nodesOf items = items.filterMap Node.ofJson? := by
  induction items with
  | nil => rw [nodesOf, List.filterMap_nil]
  | cons item rest ih =>
    rw [nodesOf, List.filterMap_cons, ih]
    cases Node.ofJson? item <;> rfl

/-- The nodes inside an object are the objects of its last array `inner`, in their order. -/
theorem innerOf_eq (members : List (String × Json)) :
    innerOf members = (innerItems members).filterMap Node.ofJson? := by
  induction members with
  | nil => rw [innerOf]; rfl
  | cons member rest ih =>
    obtain ⟨key, value⟩ := member
    rw [innerOf]
    cases hlater : Json.lookup "inner" rest with
    | some later =>
      rw [innerItems, hlater] at ih
      simp [innerItems, Json.lookup, hlater, ih]
    | none =>
      by_cases hkey : key = "inner"
      · cases value <;> simp [innerItems, Json.lookup, hlater, hkey, itemsOf, Json.items?, nodesOf_eq]
      · rw [innerItems, hlater] at ih
        simp [innerItems, Json.lookup, hlater, hkey, ih]


/-- Induction over a row of nodes, into the nodes and along the row. -/
theorem forest_induction {motive : List Node → Prop} (nil : motive [])
    (cons : ∀ attrs inner rest, motive inner → motive rest → motive (.mk attrs inner :: rest)) :
    ∀ nodes, motive nodes
  | [] => nil
  | .mk attrs inner :: rest =>
    cons attrs inner rest (forest_induction nil cons inner) (forest_induction nil cons rest)

namespace LocCursor

variable (cursor : LocCursor) (attrs : Attrs)

/-- The location of a node that has one. -/
def locOf : Option Loc := (cursor.read attrs.loc).1

/-- The begin of the range of a node that has a location before it. -/
def firstOf : Option Loc := ((cursor.read attrs.loc).2.read attrs.rangeBegin).1

/-- The end of the range of a node that has a location before it. -/
def lastOf :
    Option Loc := (((cursor.read attrs.loc).2.read attrs.rangeBegin).2.read attrs.rangeEnd).1

/-- The begin of the range of a statement. -/
def rangeFirst : Option Loc := (cursor.read attrs.rangeBegin).1

/-- The end of the range of a statement. -/
def rangeLast : Option Loc := ((cursor.read attrs.rangeBegin).2.read attrs.rangeEnd).1

/-- The cursor after the range of a statement. -/
def afterRange : LocCursor := ((cursor.read attrs.rangeBegin).2.read attrs.rangeEnd).2

end LocCursor

/-- Whether a statement is passed over: inside loose nodes and in system headers. -/
def isPassedOver (ctx : Context) (frame : Frame) (first? : Option Loc) : Bool :=
  frame.detached || first?.any fun first => ctx.isSystemFile first.expansion.file

/-- Whether the node of a declaration is loose. -/
def isLoose (frame : Frame) (attrs : Attrs) (t : Tree) : Bool :=
  frame.detached || attrs.isImplicit ||
    (attrs.cls = "CXXRecordDecl" && t.kind? frame.parent = some .lambdaExpr)

/-- Every class that can be the pattern of a template is one of a declaration. -/
theorem plan_of_isPattern (kind : NodeKind) (attrs : Attrs) (h : isPattern kind attrs.cls = true) :
    ∃ pattern, attrs.plan = .declaration pattern := by
  have hcls : attrs.cls ∈ ["FunctionDecl", "CXXMethodDecl", "CXXConstructorDecl", "CXXDestructorDecl",
      "CXXConversionDecl", "CXXDeductionGuideDecl", "CXXRecordDecl", "TypeAliasDecl", "VarDecl"] := by
    unfold isPattern at h
    split at h
    · have hmem := List.contains_iff_mem.mp h
      exact List.mem_append_left ["CXXRecordDecl", "TypeAliasDecl", "VarDecl"] hmem
    · simp [of_decide_eq_true h]
    · simp [of_decide_eq_true h]
    · simp [of_decide_eq_true h]
    · cases h
  simp only [List.mem_cons, List.not_mem_nil, or_false] at hcls
  rcases hcls with hcls | hcls | hcls | hcls | hcls | hcls | hcls | hcls | hcls
  all_goals
    rw [Attrs.plan, hcls]
    exact ⟨_, rfl⟩

/-- Of the templates, those that merge are the scope of what is inside them. -/
theorem opensScope_of_plan_template {attrs : Attrs} {kind : NodeKind} {merges : Bool}
    (h : attrs.plan = .template kind merges) : opensScope kind = merges := by
  unfold Attrs.plan at h
  split at h
  case h_8 =>
    unfold plainPlan at h
    split at h
    · cases h
    · split at h
      all_goals cases h
  all_goals cases h
  all_goals rfl

/-- Expressions and statements declare nothing. -/
theorem isDeclaration_of_plan_statement {attrs : Attrs} {kind : NodeKind} (h : attrs.plan = .statement kind) :
    kind.isDeclaration = false := by
  have hexpression : ∀ cls, expressionKind? cls = some kind → kind.isDeclaration = false := by
    intro cls hkind
    unfold expressionKind? at hkind
    split at hkind
    case h_36 =>
      split at hkind
      · cases hkind
        rfl
      · cases hkind
    all_goals
      cases hkind
      rfl
  have hstatement : ∀ cls, statementKind? cls = some kind → kind.isDeclaration = false := by
    intro cls hkind
    unfold statementKind? at hkind
    split at hkind
    case h_17 =>
      split at hkind
      · cases hkind
        rfl
      · cases hkind
    all_goals
      cases hkind
      rfl
  unfold Attrs.plan at h
  split at h
  case h_8 =>
    unfold plainPlan at h
    split at h
    · cases h
    · split at h
      · cases h
      · cases h
        exact hexpression _ ‹_›
      · cases h
        exact hstatement _ ‹_›
      · cases h
  all_goals cases h

/-- Of the expressions and statements, lambdas are the scope of what is inside them. -/
theorem opensScope_of_plan_statement {attrs : Attrs} {kind : NodeKind} (h : attrs.plan = .statement kind) :
    opensScope kind = decide (kind = .lambdaExpr) := by
  have hstatement := isDeclaration_of_plan_statement h
  cases kind <;> first | rfl | cases hstatement

/-- The frame of what is inside the next node. -/
def Frame.inside (frame : Frame) (d : Draft) (kind : NodeKind) (detached : Bool) : Frame :=
  ⟨d.tree.nextId, if opensScope kind then d.tree.nextId else frame.scope, detached⟩

/-! ### The next node -/

namespace Draft

variable (ctx : Context) (d : Draft) (frame : Frame) (detached : Bool) (kind : NodeKind) (attrs : Attrs)
  (inner : List Node) (loc? first? last? : Option Loc)

@[simp] theorem fst_create (spelling : String) : (d.create frame detached kind spelling).1 = d.tree.nextId := by
  cases detached with
  | true => exact d.tree.fst_addLoose (some frame.scope) kind spelling
  | false => exact d.tree.fst_attach frame.parent kind spelling

theorem snd_create (spelling : String) :
    (d.create frame detached kind spelling).2 = d.edit fun t =>
      (if detached then (t.addLoose (some frame.scope) kind spelling).2
       else (t.attach frame.parent kind spelling).2).setSemanticParent t.nextId (some frame.scope) := by
  have hid := d.fst_create frame detached kind spelling
  rw [edit, ← hid]
  cases detached <;> rfl

@[simp] theorem fst_declareTemplate :
    (d.declareTemplate ctx frame detached kind attrs loc? last?).1 = d.tree.nextId :=
  d.fst_create frame detached kind attrs.name

theorem snd_declareTemplate :
    (d.declareTemplate ctx frame detached kind attrs loc? last?).2 =
      ((((d.create frame detached kind attrs.name).2.register attrs d.tree.nextId).place ctx d.tree.nextId loc?
        last?).noteLinks attrs d.tree.nextId) := by
  rw [← d.fst_create frame detached kind attrs.name]
  rfl

@[simp] theorem fst_declare :
    (d.declare ctx frame detached kind attrs inner loc? first? last?).1 = d.tree.nextId :=
  d.fst_create frame detached kind attrs.name

@[simp] theorem fst_state : (d.state ctx frame kind attrs first? last?).1 = d.tree.nextId :=
  d.fst_create frame false kind (statementSpelling kind attrs)

theorem snd_state :
    (d.state ctx frame kind attrs first? last?).2 =
      let d' := ((d.create frame false kind (statementSpelling kind attrs)).2.register attrs d.tree.nextId).place ctx
        d.tree.nextId (statementPosition ctx kind attrs first? last?) last?
      let noted : Draft := { d' with
        references := ((linkTarget? attrs).map fun target => (d.tree.nextId, target)).toList ++ d'.references
        constructs := (construct? attrs d.tree.nextId).toList ++ d'.constructs }
      if isOperator kind then noted.edit (·.setTokens d.tree.nextId (operatorTokens ctx attrs first? last?))
      else noted := by
  rw [← d.fst_create frame false kind (statementSpelling kind attrs)]
  rfl

end Draft

section Equations

variable (ctx : Context) (frame : Frame) (attrs : Attrs) (inner : List Node) (d : Draft)

theorem build_skim (h : attrs.plan = .skim) :
    build ctx frame (.mk attrs inner) d =
      { d with cursor := skimAll inner (d.cursor.afterAttrs attrs) } := by
  rw [build]
  simp only [h]

theorem build_dissolve (h : attrs.plan = .dissolve) :
    build ctx frame (.mk attrs inner) d =
      buildAll ctx frame inner { d with cursor := d.cursor.afterAttrs attrs } := by
  rw [build]
  simp only [h]

theorem build_mention (h : attrs.isMention = true)
    (hplan : (∃ kind merges, attrs.plan = .template kind merges) ∨ ∃ kind, attrs.plan = .declaration kind) :
    build ctx frame (.mk attrs inner) d = d := by
  rw [build]
  rcases hplan with ⟨kind, merges, hplan⟩ | ⟨kind, hplan⟩ <;> simp only [hplan, h, if_true]

theorem build_template {kind : NodeKind} {merges : Bool} (h : attrs.plan = .template kind merges)
    (hm : attrs.isMention = false) :
    build ctx frame (.mk attrs inner) d =
      buildTemplate ctx kind merges d.tree.nextId
        ⟨d.tree.nextId, if merges then d.tree.nextId else frame.scope, frame.detached || attrs.isImplicit⟩
        { frame with detached := true } false inner
        ({ d with cursor := d.cursor.afterAttrs attrs }.declareTemplate ctx frame
          (frame.detached || attrs.isImplicit) kind attrs (d.cursor.locOf attrs) (d.cursor.lastOf attrs)).2 := by
  rw [build]
  simp only [h, hm, Draft.fst_declareTemplate]
  rfl

theorem build_declaration {kind : NodeKind} (h : attrs.plan = .declaration kind)
    (hm : attrs.isMention = false) :
    build ctx frame (.mk attrs inner) d =
      buildAll ctx ⟨d.tree.nextId, if opensScope kind then d.tree.nextId else frame.scope,
          isLoose frame attrs d.tree⟩ inner
        ({ d with cursor := d.cursor.afterAttrs attrs }.declare ctx frame (isLoose frame attrs d.tree) kind
          attrs inner (d.cursor.locOf attrs) (d.cursor.firstOf attrs) (d.cursor.lastOf attrs)).2 := by
  rw [build]
  simp only [h, hm, Draft.fst_declare]
  rfl

theorem build_passedOver {kind : NodeKind} (h : attrs.plan = .statement kind)
    (hp : isPassedOver ctx frame (d.cursor.rangeFirst attrs) = true) :
    build ctx frame (.mk attrs inner) d =
      { d with cursor := skimAll inner (d.cursor.afterRange attrs) } := by
  rw [build]
  simp only [h]
  exact if_pos hp

theorem build_statement {kind : NodeKind} (h : attrs.plan = .statement kind)
    (hp : isPassedOver ctx frame (d.cursor.rangeFirst attrs) = false) :
    build ctx frame (.mk attrs inner) d =
      buildAll ctx ⟨d.tree.nextId, if kind = .lambdaExpr then d.tree.nextId else frame.scope, false⟩ inner
        ({ d with cursor := d.cursor.afterRange attrs }.state ctx frame kind attrs
          (d.cursor.rangeFirst attrs) (d.cursor.rangeLast attrs)).2 := by
  rw [build]
  simp only [h, Draft.fst_state]
  exact if_neg (ne_true_of_eq_false hp)

theorem buildAll_nil : buildAll ctx frame [] d = d := by rw [buildAll]

theorem buildAll_cons (node : Node) (rest : List Node) :
    buildAll ctx frame (node :: rest) d = buildAll ctx frame rest (build ctx frame node d) := by
  rw [buildAll]

variable (kind : NodeKind) (merges : Bool) (id : NodeId) (own beside : Frame) (rest : List Node)

theorem buildTemplate_nil (seen : Bool) :
    buildTemplate ctx kind merges id own beside seen [] d = d := by
  cases seen <;> rw [buildTemplate]

/-- What follows the pattern of a template is read beside the template. -/
theorem buildTemplate_seen (nodes : List Node) :
    buildTemplate ctx kind merges id own beside true nodes d = buildAll ctx beside nodes d := by
  induction nodes generalizing d with
  | nil => rw [buildTemplate_nil, buildAll_nil]
  | cons node rest ih => rw [buildTemplate, ih, buildAll_cons]

theorem buildTemplate_before (h : isPattern kind attrs.cls = false) :
    buildTemplate ctx kind merges id own beside false (.mk attrs inner :: rest) d =
      buildTemplate ctx kind merges id own beside false rest (build ctx own (.mk attrs inner) d) := by
  rw [buildTemplate]
  simp [h]

theorem buildTemplate_pattern (h : isPattern kind attrs.cls = true) (hm : merges = false) :
    buildTemplate ctx kind merges id own beside false (.mk attrs inner :: rest) d =
      buildAll ctx beside rest (build ctx own (.mk attrs inner) d) := by
  subst hm
  rw [buildTemplate, if_pos h]
  exact buildTemplate_seen ctx _ kind false id own beside rest

theorem buildTemplate_merge (h : isPattern kind attrs.cls = true) (hm : merges = true) :
    buildTemplate ctx kind merges id own beside false (.mk attrs inner :: rest) d =
      buildAll ctx beside rest
        (if attrs.isMention then d else buildAll ctx own inner (d.mergePattern id kind attrs inner)) := by
  subst hm
  rw [buildTemplate, if_pos h]
  exact buildTemplate_seen ctx _ kind true id own beside rest

end Equations

namespace Draft

variable (ctx : Context) (d : Draft) (frame : Frame) (detached : Bool) (kind : NodeKind)
  (attrs : Attrs) (inner : List Node) (id : NodeId)

/-- Marks a node as a definition on a condition. -/
def markIf (cond : Bool) : Draft := if cond then d.edit (·.markDefinition id) else d

theorem declare_eq (loc? first? last? : Option Loc) :
    (d.declare ctx frame detached kind attrs inner loc? first? last?).2 =
      let d' := (d.declareTemplate ctx frame detached kind attrs loc? last?).2.markIf d.tree.nextId
        (isDefining kind attrs inner || (kind = .enumDecl && closesBody ctx last?))
      { d' with
        mentions := (if detached then none
          else mention? ctx attrs kind d.tree.nextId first? loc? last?).toList ++ d'.mentions
        ctorTypes := ((if kind = .constructor then attrs.qualType else none).map
          fun type => (d.tree.nextId, type)).toList ++ d'.ctorTypes } := by
  rw [← d.fst_create frame detached kind attrs.name]
  rfl

/-- Sets the last line of a node where a range has an end. -/
def setEnd (end? : Option Loc) : Draft :=
  match end? with
  | some last => d.edit (·.setEndLine id last.spelling.line)
  | none => d

theorem mergePattern_eq :
    d.mergePattern id kind attrs inner =
      ((({ d with cursor := d.cursor.afterAttrs attrs }.register attrs id).setEnd id
        (d.cursor.lastOf attrs)).noteLinks attrs id).markIf id (isDefining kind attrs inner) := rfl

@[simp] theorem tree_register : (d.register attrs id).tree = d.tree := by
  unfold register
  split <;> rfl

@[simp] theorem tree_noteLinks : (d.noteLinks attrs id).tree = d.tree := rfl

end Draft

/-- The draft before the first node inside of a unit. -/
def startDraft (ctx : Context) (attrs : Attrs) : Draft :=
  ({ tree := Tree.start ctx.mainFile, cursor := LocCursor.afterAttrs {} attrs } : Draft).register attrs 0

theorem buildRoot_eq (ctx : Context) (attrs : Attrs) (inner : List Node) :
    buildRoot ctx (.mk attrs inner) = buildAll ctx ⟨0, 0, false⟩ inner (startDraft ctx attrs) := by
  rw [buildRoot]
  simp only [Draft.tree_register]
  rfl

/-- A relation between drafts that every single step of reading keeps to, in frames that are valid
for the draft at hand. -/
structure StepClosed (ctx : Context) (Valid : Frame → Draft → Prop) (R : Draft → Draft → Prop) :
    Prop where
  refl : ∀ d, R d d
  trans : ∀ {d₁ d₂ d₃}, R d₁ d₂ → R d₂ d₃ → R d₁ d₃
  valid : ∀ {frame d d'}, Valid frame d → R d d' → Valid frame d'
  loosen : ∀ {frame d}, Valid frame d → Valid { frame with detached := true } d
  cursor : ∀ d cursor, R d { d with cursor := cursor }
  declare : ∀ frame d kind attrs inner loc? first? last?, Valid frame d →
    let d' := (d.declare ctx frame (isLoose frame attrs d.tree) kind attrs inner loc? first? last?).2
    R d d' ∧ Valid (frame.inside d kind (isLoose frame attrs d.tree)) d'
  declareTemplate : ∀ frame d kind attrs loc? last?, Valid frame d →
    let d' := (d.declareTemplate ctx frame (frame.detached || attrs.isImplicit) kind attrs loc? last?).2
    R d d' ∧ Valid (frame.inside d kind (frame.detached || attrs.isImplicit)) d'
  mergePattern : ∀ frame d kind attrs inner, Valid frame d →
    R d (d.mergePattern frame.parent kind attrs inner)
  state : ∀ frame d kind attrs first? last?, Valid frame d → frame.detached = false →
    let d' := (d.state ctx frame kind attrs first? last?).2
    R d d' ∧ Valid (frame.inside d kind false) d'

/-- Reading a row of nodes keeps to a relation: as the inner nodes of any node and, in the frame `own`
of a template, as the inner nodes of that template. -/
structure KeepsTo (ctx : Context) (Valid : Frame → Draft → Prop) (R : Draft → Draft → Prop)
    (nodes : List Node) : Prop where
  row : ∀ frame d, Valid frame d → R d (buildAll ctx frame nodes d)
  template : ∀ kind merges own beside seen d, Valid own d → Valid beside d →
    R d (buildTemplate ctx kind merges own.parent own beside seen nodes d)

namespace StepClosed

variable {ctx : Context} {Valid : Frame → Draft → Prop} {R : Draft → Draft → Prop}
  (hR : StepClosed ctx Valid R)
include hR

/-- One node, by its plan. -/
theorem build (attrs : Attrs) {inner : List Node} (hinner : KeepsTo ctx Valid R inner)
    {frame : Frame} {d : Draft}
    (hv : Valid frame d) : R d (build ctx frame (.mk attrs inner) d) := by
  have hcursor := hR.cursor d (d.cursor.afterAttrs attrs)
  have hv' := hR.valid hv hcursor
  cases hplan : attrs.plan with
  | skim =>
    rw [build_skim ctx frame attrs inner d hplan]
    exact hR.cursor d _
  | dissolve =>
    rw [build_dissolve ctx frame attrs inner d hplan]
    exact hR.trans hcursor (hinner.row frame _ hv')
  | template kind merges =>
    cases hm : attrs.isMention with
    | true =>
      rw [build_mention ctx frame attrs inner d hm (Or.inl ⟨kind, merges, hplan⟩)]
      exact hR.refl d
    | false =>
      rw [build_template ctx frame attrs inner d hplan hm]
      obtain ⟨hstep, hown⟩ := hR.declareTemplate _ _ kind attrs (d.cursor.locOf attrs)
        (d.cursor.lastOf attrs) hv'
      rw [Frame.inside, opensScope_of_plan_template hplan] at hown
      have hbeside := hR.loosen (hR.valid hv' hstep)
      exact hR.trans hcursor (hR.trans hstep (hinner.template kind merges _ _ false _ hown hbeside))
  | declaration kind =>
    cases hm : attrs.isMention with
    | true =>
      rw [build_mention ctx frame attrs inner d hm (Or.inr ⟨kind, hplan⟩)]
      exact hR.refl d
    | false =>
      rw [build_declaration ctx frame attrs inner d hplan hm]
      obtain ⟨hstep, hown⟩ := hR.declare _ _ kind attrs inner (d.cursor.locOf attrs)
        (d.cursor.firstOf attrs) (d.cursor.lastOf attrs) hv'
      exact hR.trans hcursor (hR.trans hstep (hinner.row _ _ hown))
  | statement kind =>
    cases hp : isPassedOver ctx frame (d.cursor.rangeFirst attrs) with
    | true =>
      rw [build_passedOver ctx frame attrs inner d hplan hp]
      exact hR.cursor d _
    | false =>
      rw [build_statement ctx frame attrs inner d hplan hp]
      have hattached : frame.detached = false := by
        rw [isPassedOver, Bool.or_eq_false_iff] at hp
        exact hp.1
      have hrange := hR.cursor d (d.cursor.afterRange attrs)
      obtain ⟨hstep, hown⟩ := hR.state _ _ kind attrs (d.cursor.rangeFirst attrs)
        (d.cursor.rangeLast attrs) (hR.valid hv hrange) hattached
      simp only [Frame.inside, opensScope_of_plan_statement hplan, decide_eq_true_eq] at hown
      exact hR.trans hrange (hR.trans hstep (hinner.row _ _ hown))

/-- The pattern of a template that merges. -/
theorem merge (attrs : Attrs) {inner : List Node} (hinner : KeepsTo ctx Valid R inner)
    (kind : NodeKind)
    {own : Frame} {d : Draft} (hown : Valid own d) :
    R d (if attrs.isMention then d
      else buildAll ctx own inner (d.mergePattern own.parent kind attrs inner)) := by
  split
  · exact hR.refl d
  · have hstep := hR.mergePattern _ _ kind attrs inner hown
    exact hR.trans hstep (hinner.row own _ (hR.valid hown hstep))

theorem keepsTo (nodes : List Node) : KeepsTo ctx Valid R nodes := by
  induction nodes using forest_induction with
  | nil =>
    constructor
    · intro frame d _
      rw [buildAll_nil]
      exact hR.refl d
    · intro kind merges own beside seen d _ _
      rw [buildTemplate_nil]
      exact hR.refl d
  | cons attrs inner rest ihInner ihRest =>
    -- what is read of the first node keeps to the relation, so the frames stay valid for the rest
    have hrest : ∀ {frame d d'}, Valid frame d → R d d' → R d (buildAll ctx frame rest d') :=
      fun hv hfirst => hR.trans hfirst (ihRest.row _ _ (hR.valid hv hfirst))
    constructor
    · intro frame d hv
      rw [buildAll_cons]
      exact hrest hv (hR.build attrs ihInner hv)
    · intro kind merges own beside seen d hown hbeside
      cases seen with
      | true =>
        rw [buildTemplate_seen, buildAll_cons]
        exact hrest hbeside (hR.build attrs ihInner hbeside)
      | false =>
        have hfirst := hR.build attrs ihInner hown
        cases hpat : isPattern kind attrs.cls with
        | false =>
          rw [buildTemplate_before ctx attrs inner d kind merges own.parent own beside rest hpat]
          exact hR.trans hfirst (ihRest.template kind merges own beside false _ (hR.valid hown hfirst)
            (hR.valid hbeside hfirst))
        | true =>
          cases merges with
          | false =>
            rw [buildTemplate_pattern ctx attrs inner d kind false own.parent own beside rest hpat rfl]
            exact hrest hbeside hfirst
          | true =>
            rw [buildTemplate_merge ctx attrs inner d kind true own.parent own beside rest hpat rfl]
            exact hrest hbeside (hR.merge attrs ihInner kind hown)

end StepClosed

end UnitFacts.Dump
