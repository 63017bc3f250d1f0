import UnitFacts.Proofs.Dump.Reading

/-!
Documents that read alike. Two documents differ at most in how they write locations, and taken in
document order each pair of locations reads the same from every cursor that can stand there. Then
reading gives the same draft. All ways of treating a node come down to one order of its locations:
its own, the begin and the end of its range, and those of the nodes inside.
-/

namespace UnitFacts.Dump

/-- From every cursor in `P` the two locations read the same and leave the cursor in `Q`. -/
def LocAlike (P : LocCursor → Prop) (raw raw' : RawLoc) (Q : LocCursor → Prop) : Prop :=
  ∀ cursor, P cursor → cursor.read raw' = cursor.read raw ∧ Q (cursor.read raw).2

namespace Attrs

/-- The same attributes with other locations. -/
def relocate (attrs : Attrs) (loc first last : RawLoc) : Attrs :=
  { attrs with loc := loc, rangeBegin := first, rangeEnd := last }

/-- Whether a node becomes a declaration or a template, unless it is a mention. -/
def declares (attrs : Attrs) : Bool :=
  match attrs.plan with
  | .template _ _ | .declaration _ => true
  | _ => false

/-- What a compiler keeps to: statements have no location besides their range, and a mention has
neither locations nor nodes inside. -/
structure Shaped (attrs : Attrs) (inner : List Node) : Prop where
  statement : ∀ kind, attrs.plan = .statement kind → attrs.loc = .absent
  mention : attrs.declares = true → attrs.isMention = true →
    inner = [] ∧ attrs.loc = .absent ∧ attrs.rangeBegin = .absent ∧ attrs.rangeEnd = .absent

end Attrs

/-- Rows of nodes that differ in their locations only, each location reading the same when the row
is entered with a cursor in `P`; the row is left with a cursor in `Q`. -/
inductive Alike : (LocCursor → Prop) → List Node → List Node → (LocCursor → Prop) → Prop
  | nil {P : LocCursor → Prop} : Alike P [] [] P
  | cons {P P₁ P₂ P₃ P₄ Q : LocCursor → Prop} {attrs : Attrs} {loc first last : RawLoc}
      {inner inner' rest rest' : List Node} :
      attrs.Shaped inner → LocAlike P attrs.loc loc P₁ → LocAlike P₁ attrs.rangeBegin first P₂ →
      LocAlike P₂ attrs.rangeEnd last P₃ → Alike P₃ inner inner' P₄ → Alike P₄ rest rest' Q →
      Alike P (.mk attrs inner :: rest) (.mk (attrs.relocate loc first last) inner' :: rest') Q

/-- What reading makes of two rows that are alike. -/
structure SameReading (ctx : Context) (P : LocCursor → Prop) (nodes nodes' : List Node)
    (Q : LocCursor → Prop) : Prop where
  classes : nodes'.map (·.attrs.cls) = nodes.map (·.attrs.cls)
  skimAll : ∀ cursor, P cursor →
    skimAll nodes' cursor = skimAll nodes cursor ∧ Q (skimAll nodes cursor)
  buildAll : ∀ frame d, P d.cursor →
    buildAll ctx frame nodes' d = buildAll ctx frame nodes d ∧ Q (buildAll ctx frame nodes d).cursor
  buildTemplate : ∀ kind merges id own beside seen d, P d.cursor →
    buildTemplate ctx kind merges id own beside seen nodes' d =
        buildTemplate ctx kind merges id own beside seen nodes d ∧
      Q (buildTemplate ctx kind merges id own beside seen nodes d).cursor

section Locations

variable {P P₁ P₂ P₃ : LocCursor → Prop} {attrs : Attrs} {loc first last : RawLoc}
  (h₁ : LocAlike P attrs.loc loc P₁) (h₂ : LocAlike P₁ attrs.rangeBegin first P₂)
  (h₃ : LocAlike P₂ attrs.rangeEnd last P₃)
include h₁ h₂ h₃

/-- The locations of a node that has one of its own, and the cursor after them. -/
theorem locs_alike {cursor : LocCursor} (hc : P cursor) :
    cursor.locOf (attrs.relocate loc first last) = cursor.locOf attrs ∧
    cursor.firstOf (attrs.relocate loc first last) = cursor.firstOf attrs ∧
    cursor.lastOf (attrs.relocate loc first last) = cursor.lastOf attrs ∧
    cursor.afterAttrs (attrs.relocate loc first last) = cursor.afterAttrs attrs ∧
    P₃ (cursor.afterAttrs attrs) := by
  obtain ⟨heq₁, hc₁⟩ := h₁ cursor hc
  obtain ⟨heq₂, hc₂⟩ := h₂ _ hc₁
  obtain ⟨heq₃, hc₃⟩ := h₃ _ hc₂
  simp only [LocCursor.locOf, LocCursor.firstOf, LocCursor.lastOf, LocCursor.afterAttrs,
    Attrs.relocate, heq₁,
    heq₂, heq₃, true_and]
  exact hc₃

/-- The locations of a statement, and the cursor after them. -/
theorem ranges_alike (habsent : attrs.loc = .absent) {cursor : LocCursor} (hc : P cursor) :
    cursor.rangeFirst (attrs.relocate loc first last) = cursor.rangeFirst attrs ∧
    cursor.rangeLast (attrs.relocate loc first last) = cursor.rangeLast attrs ∧
    cursor.afterRange (attrs.relocate loc first last) = cursor.afterRange attrs ∧
    P₃ (cursor.afterRange attrs) := by
  obtain ⟨-, hc₁⟩ := h₁ cursor hc
  rw [habsent] at hc₁
  obtain ⟨heq₂, hc₂⟩ := h₂ cursor hc₁
  obtain ⟨heq₃, hc₃⟩ := h₃ _ hc₂
  simp only [LocCursor.rangeFirst, LocCursor.rangeLast, LocCursor.afterRange, Attrs.relocate, heq₂,
    heq₃,
    true_and]
  exact hc₃

end Locations

namespace Draft

variable (ctx : Context) (d : Draft) (frame : Frame) (detached : Bool) (kind : NodeKind)
  (attrs : Attrs)
  (inner : List Node) (id : NodeId)

@[simp] theorem cursor_register : (d.register attrs id).cursor = d.cursor := by
  unfold register
  split <;> rfl

@[simp] theorem cursor_markIf (cond : Bool) : (d.markIf id cond).cursor = d.cursor := by
  unfold markIf
  split <;> rfl

@[simp] theorem cursor_setEnd (end? : Option Loc) : (d.setEnd id end?).cursor = d.cursor := by
  cases end? <;> rfl

@[simp] theorem cursor_declareTemplate (loc? last? : Option Loc) :
    (d.declareTemplate ctx frame detached kind attrs loc? last?).2.cursor = d.cursor :=
  cursor_register _ attrs _

@[simp] theorem cursor_declare (loc? first? last? : Option Loc) :
    (d.declare ctx frame detached kind attrs inner loc? first? last?).2.cursor = d.cursor := by
  rw [declare_eq]
  simp

@[simp] theorem cursor_mergePattern :
    (d.mergePattern id kind attrs inner).cursor = d.cursor.afterAttrs attrs := by
  rw [mergePattern_eq, cursor_markIf]
  exact (cursor_setEnd _ id _).trans (cursor_register _ attrs id)

@[simp] theorem cursor_state (first? last? : Option Loc) :
    (d.state ctx frame kind attrs first? last?).2.cursor = d.cursor := by
  rw [snd_state]
  split
  · exact cursor_register _ attrs _
  · exact cursor_register _ attrs _

end Draft

theorem isDefining_relocate (kind : NodeKind) (attrs : Attrs) (loc first last : RawLoc)
    {inner inner' : List Node}
    (h : inner'.map (·.attrs.cls) = inner.map (·.attrs.cls)) :
    isDefining kind (attrs.relocate loc first last) inner' = isDefining kind attrs inner := by
  have hinner : ∀ classes, hasInner inner' classes = hasInner inner classes := by
    intro classes
    have hany : ∀ nodes : List Node,
        hasInner nodes classes = (nodes.map (·.attrs.cls)).any fun cls => classes.contains cls := by
      intro nodes
      rw [hasInner, List.any_map]
      rfl
    rw [hany, hany, h]
  simp only [isDefining, hinner]
  rfl

section Node

variable {ctx : Context} {P P₁ P₂ P₃ P₄ : LocCursor → Prop} {attrs : Attrs}
  {loc first last : RawLoc}
  {inner inner' : List Node} (h₁ : LocAlike P attrs.loc loc P₁)
  (h₂ : LocAlike P₁ attrs.rangeBegin first P₂) (h₃ : LocAlike P₂ attrs.rangeEnd last P₃)
  (hinner : SameReading ctx P₃ inner inner' P₄)
include h₁ h₂ h₃ hinner

theorem skim_alike (cursor : LocCursor) (hc : P cursor) :
    skim (.mk (attrs.relocate loc first last) inner') cursor = skim (.mk attrs inner) cursor ∧
      P₄ (skim (.mk attrs inner) cursor) := by
  obtain ⟨-, -, -, hafter, hc₃⟩ := locs_alike h₁ h₂ h₃ hc
  rw [skim, skim, hafter]
  exact hinner.skimAll _ hc₃

/-- One node, by its plan. -/
theorem build_alike (hshape : attrs.Shaped inner)
    (hempty : inner = [] → ∀ cursor, P₃ cursor → P₄ cursor) (frame : Frame) (d : Draft)
    (hd : P d.cursor) :
    build ctx frame (.mk (attrs.relocate loc first last) inner') d = build ctx frame (.mk attrs inner) d ∧
      P₄ (build ctx frame (.mk attrs inner) d).cursor := by
  obtain ⟨hloc, hfirst, hlast, hafter, hc₃⟩ := locs_alike h₁ h₂ h₃ hd
  have hmention : attrs.isMention = true → attrs.declares = true → P₄ d.cursor := by
    intro hm hdeclares
    obtain ⟨hnil, habs₁, habs₂, habs₃⟩ := hshape.mention hdeclares hm
    have hstay : d.cursor.afterAttrs attrs = d.cursor := by
      simp [LocCursor.afterAttrs, LocCursor.read, habs₁, habs₂, habs₃]
    exact hempty hnil _ (hstay ▸ hc₃)
  cases hplan : attrs.plan with
  | skim =>
    rw [build_skim ctx frame (attrs.relocate loc first last) inner' d hplan,
      build_skim ctx frame attrs inner d hplan, hafter]
    obtain ⟨heq, hc₄⟩ := hinner.skimAll _ hc₃
    rw [heq]
    exact ⟨rfl, hc₄⟩
  | dissolve =>
    rw [build_dissolve ctx frame (attrs.relocate loc first last) inner' d hplan,
      build_dissolve ctx frame attrs inner d hplan, hafter]
    exact hinner.buildAll frame _ hc₃
  | template kind merges =>
    cases hm : attrs.isMention with
    | true =>
      rw [build_mention ctx frame (attrs.relocate loc first last) inner' d hm (Or.inl ⟨kind, merges, hplan⟩),
        build_mention ctx frame attrs inner d hm (Or.inl ⟨kind, merges, hplan⟩)]
      exact ⟨rfl, hmention hm (by simp [Attrs.declares, hplan])⟩
    | false =>
      rw [build_template ctx frame (attrs.relocate loc first last) inner' d hplan hm,
        build_template ctx frame attrs inner d hplan hm, hloc, hlast, hafter]
      apply hinner.buildTemplate
      rw [Draft.cursor_declareTemplate]
      exact hc₃
  | declaration kind =>
    cases hm : attrs.isMention with
    | true =>
      rw [build_mention ctx frame (attrs.relocate loc first last) inner' d hm (Or.inr ⟨kind, hplan⟩),
        build_mention ctx frame attrs inner d hm (Or.inr ⟨kind, hplan⟩)]
      exact ⟨rfl, hmention hm (by simp [Attrs.declares, hplan])⟩
    | false =>
      rw [build_declaration ctx frame (attrs.relocate loc first last) inner' d hplan hm,
        build_declaration ctx frame attrs inner d hplan hm, hloc, hfirst, hlast, hafter, Draft.declare_eq,
        Draft.declare_eq, isDefining_relocate kind attrs loc first last hinner.classes]
      apply hinner.buildAll
      simpa using hc₃
  | statement kind =>
    obtain ⟨hfirst, hlast, hafter, hc₃⟩ := ranges_alike h₁ h₂ h₃ (hshape.statement kind hplan) hd
    cases hp : isPassedOver ctx frame (d.cursor.rangeFirst attrs) with
    | true =>
      rw [build_passedOver ctx frame (attrs.relocate loc first last) inner' d hplan (hfirst ▸ hp),
        build_passedOver ctx frame attrs inner d hplan hp, hafter]
      obtain ⟨heq, hc₄⟩ := hinner.skimAll _ hc₃
      rw [heq]
      exact ⟨rfl, hc₄⟩
    | false =>
      rw [build_statement ctx frame (attrs.relocate loc first last) inner' d hplan (hfirst ▸ hp),
        build_statement ctx frame attrs inner d hplan hp, hfirst, hlast, hafter]
      apply hinner.buildAll
      rw [Draft.cursor_state]
      exact hc₃

/-- The pattern of a template that merges. -/
theorem mergePattern_alike (id : NodeId) (kind : NodeKind) (own : Frame) (d : Draft)
    (hd : P d.cursor) :
    buildAll ctx own inner' (d.mergePattern id kind (attrs.relocate loc first last) inner') =
        buildAll ctx own inner (d.mergePattern id kind attrs inner) ∧
      P₄ (buildAll ctx own inner (d.mergePattern id kind attrs inner)).cursor := by
  obtain ⟨-, -, hlast, hafter, hc₃⟩ := locs_alike h₁ h₂ h₃ hd
  have hmerge : d.mergePattern id kind (attrs.relocate loc first last) inner' =
      d.mergePattern id kind attrs inner := by
    rw [Draft.mergePattern_eq, Draft.mergePattern_eq,
      isDefining_relocate kind attrs loc first last hinner.classes,
      hlast, hafter]
    rfl
  rw [hmerge]
  apply hinner.buildAll
  rw [Draft.cursor_mergePattern]
  exact hc₃

end Node

theorem Alike.eq_of_nil {P Q : LocCursor → Prop} {nodes' : List Node} (h : Alike P [] nodes' Q) :
    P = Q := by
  cases h
  rfl

theorem Alike.sameReading (ctx : Context) {P Q : LocCursor → Prop} {nodes nodes' : List Node}
    (h : Alike P nodes nodes' Q) : SameReading ctx P nodes nodes' Q := by
  induction h with
  | nil =>
    refine ⟨rfl, fun _ hc => ⟨rfl, by rwa [skimAll]⟩, fun frame d hd => ⟨rfl, by rwa [buildAll_nil]⟩, ?_⟩
    intro kind merges id own beside seen d hd
    exact ⟨rfl, by rwa [buildTemplate_nil]⟩
  | @cons P P₁ P₂ P₃ P₄ Q attrs loc first last inner inner' rest rest' hshape h₁ h₂ h₃ hin _ ihInner
      ihRest =>
    have hempty : inner = [] → ∀ cursor, P₃ cursor → P₄ cursor := by
      rintro rfl cursor hc
      exact hin.eq_of_nil ▸ hc
    have hnode := build_alike h₁ h₂ h₃ ihInner hshape hempty
    refine ⟨?_, ?_, ?_, ?_⟩
    · rw [List.map_cons, List.map_cons, ihRest.classes]
      rfl
    · intro cursor hc
      obtain ⟨heq, hc₄⟩ := skim_alike h₁ h₂ h₃ ihInner cursor hc
      rw [skimAll, skimAll, heq]
      exact ihRest.skimAll _ hc₄
    · intro frame d hd
      obtain ⟨heq, hc₄⟩ := hnode frame d hd
      rw [buildAll_cons, buildAll_cons, heq]
      exact ihRest.buildAll frame _ hc₄
    · intro kind merges id own beside seen d hd
      cases seen with
      | true =>
        obtain ⟨heq, hc₄⟩ := hnode beside d hd
        rw [buildTemplate_seen, buildTemplate_seen, buildAll_cons, buildAll_cons, heq]
        exact ihRest.buildAll beside _ hc₄
      | false =>
        obtain ⟨heq, hc₄⟩ := hnode own d hd
        cases hpat : isPattern kind attrs.cls with
        | false =>
          rw [buildTemplate_before ctx (attrs.relocate loc first last) inner' d kind merges id own beside
            rest' hpat, buildTemplate_before ctx attrs inner d kind merges id own beside rest hpat, heq]
          exact ihRest.buildTemplate kind merges id own beside false _ hc₄
        | true =>
          cases merges with
          | false =>
            rw [buildTemplate_pattern ctx (attrs.relocate loc first last) inner' d kind false id own
              beside rest' hpat rfl,
              buildTemplate_pattern ctx attrs inner d kind false id own beside rest hpat rfl, heq]
            exact ihRest.buildAll beside _ hc₄
          | true =>
            rw [buildTemplate_merge ctx (attrs.relocate loc first last) inner' d kind true id own beside
              rest' hpat rfl, buildTemplate_merge ctx attrs inner d kind true id own beside rest hpat rfl]
            have hmention : (attrs.relocate loc first last).isMention = attrs.isMention := rfl
            rw [hmention]
            cases hm : attrs.isMention with
            | true =>
              obtain ⟨pattern, hplan⟩ := plan_of_isPattern kind attrs hpat
              rw [build_mention ctx own attrs inner d hm (Or.inr ⟨pattern, hplan⟩)] at hc₄
              exact ihRest.buildAll beside d hc₄
            | false =>
              obtain ⟨hmerge, hc₄⟩ := mergePattern_alike h₁ h₂ h₃ ihInner id kind own d hd
              rw [hmerge]
              exact ihRest.buildAll beside _ hc₄

theorem Alike.buildRoot_eq (ctx : Context) {P Q : LocCursor → Prop} {root root' : Node}
    (h : Alike P [root] [root'] Q) (hstart : P {}) :
    root'.attrs.cls = root.attrs.cls ∧ buildRoot ctx root' = buildRoot ctx root := by
  cases h with
  | @cons _ _ _ _ _ _ attrs loc first last inner inner' _ _ hshape h₁ h₂ h₃ hinner hrest =>
    obtain ⟨-, -, -, hafter, hc₃⟩ := locs_alike h₁ h₂ h₃ hstart
    have hdraft : startDraft ctx (attrs.relocate loc first last) = startDraft ctx attrs := by
      rw [startDraft, hafter]
      rfl
    refine ⟨rfl, ?_⟩
    rw [Dump.buildRoot_eq, Dump.buildRoot_eq, hdraft]
    apply ((hinner.sameReading ctx).buildAll _ _ _).1
    rw [startDraft, Draft.cursor_register]
    exact hc₃

end UnitFacts.Dump
