import UnitFacts.Proofs.Dump.Depiction
import UnitFacts.Proofs.Dump.Linking

/-!
Links leave the shape of a tree as it is, and type references only decorate it: each is a leaf that
is added after all other nodes, below a node that is attached. For that, reading notes only attached
declarations for type references.
-/

namespace UnitFacts

open UnitFacts.Tree

namespace Dump

section Mentions

/-- Only attached declarations are noted for type references. -/
def Draft.MentionsAttached (d : Draft) : Prop :=
  ∀ mention ∈ d.mentions, (d.tree.lexicalParent? mention.owner).isSome

/-- Reading on leaves lexical parents alone and notes attached declarations only. -/
def Draft.KeepsAttached (d d' : Draft) : Prop :=
  d.tree.size ≤ d'.tree.size ∧
  (∀ id, id < d.tree.size → d'.tree.lexicalParent? id = d.tree.lexicalParent? id) ∧
  (d.MentionsAttached → d'.MentionsAttached)

theorem Gains.lexicalParent?_old {t t' : Tree} {loose : Bool} {parent : NodeId} {kind : NodeKind}
    {spelling : String}
    (h : Gains t t' loose parent kind spelling) {id : NodeId} (hid : id < t.size) :
    t'.lexicalParent? id = t.lexicalParent? id := by
  rw [lexicalParent?_eq_shape, lexicalParent?_eq_shape, h.shape?_eq, if_neg (Nat.ne_of_lt hid)]
  split
  · rw [Option.bind_map]
    rfl
  · rfl

theorem lt_size_of_lexicalParent? {t : Tree} {id : NodeId} (h : (t.lexicalParent? id).isSome) :
    id < t.size := by
  obtain ⟨parent, hparent⟩ := Option.isSome_iff_exists.mp h
  exact Nested.lt_size hparent

/-- A new node for which at most an attached declaration is noted. -/
theorem Gains.keepsAttached {d d' : Draft} {loose : Bool} {parent : NodeId} {kind : NodeKind}
    {spelling : String}
    (h : Gains d.tree d'.tree loose parent kind spelling)
    (hnew : ∀ mention ∈ d'.mentions, mention ∈ d.mentions ∨ loose = false ∧ mention.owner = d.tree.size) :
    d.KeepsAttached d' := by
  refine ⟨h.size_eq ▸ Nat.le_succ _, fun id hid => h.lexicalParent?_old hid, ?_⟩
  intro hd mention hmention
  rcases hnew mention hmention with hold | ⟨hattached, howner⟩
  · have hsome := hd mention hold
    rwa [h.lexicalParent?_old (lt_size_of_lexicalParent? hsome)]
  · rw [howner, lexicalParent?_eq_shape, h.shape?_eq, if_pos rfl, hattached]
    rfl

variable (ctx : Context) (d : Draft) (frame : Frame) (detached : Bool) (kind : NodeKind)
  (attrs : Attrs)
  (inner : List Node) (id : NodeId)

namespace Draft

theorem mentions_register : (d.register attrs id).mentions = d.mentions := by
  unfold register
  split <;> rfl

theorem mentions_markIf (cond : Bool) : (d.markIf id cond).mentions = d.mentions := by
  unfold markIf
  split <;> rfl

theorem mentions_setEnd (end? : Option Loc) : (d.setEnd id end?).mentions = d.mentions := by
  cases end? <;> rfl

theorem mentions_declareTemplate (loc? last? : Option Loc) :
    (d.declareTemplate ctx frame detached kind attrs loc? last?).2.mentions = d.mentions :=
  mentions_register _ attrs _

theorem mentions_mergePattern : (d.mergePattern id kind attrs inner).mentions = d.mentions := by
  rw [mergePattern_eq, mentions_markIf]
  exact (mentions_setEnd _ id _).trans (mentions_register _ attrs id)

theorem mentions_state (first? last? : Option Loc) :
    (d.state ctx frame kind attrs first? last?).2.mentions = d.mentions := by
  rw [snd_state]
  split
  · exact mentions_register _ attrs _
  · exact mentions_register _ attrs _

theorem mem_mentions_declare (loc? first? last? : Option Loc) {mention : Mention}
    (h : mention ∈ (d.declare ctx frame detached kind attrs inner loc? first? last?).2.mentions) :
    mention ∈ d.mentions ∨ detached = false ∧ mention.owner = d.tree.size := by
  rw [declare_eq] at h
  rcases List.mem_append.mp h with hnew | hold
  · have hsome := Option.mem_toList.mp hnew
    split at hsome
    · cases hsome
    · rename_i hattached
      exact Or.inr ⟨eq_false_of_ne_true hattached, owner_mention? hsome⟩
  · rw [mentions_markIf, mentions_declareTemplate] at hold
    exact Or.inl hold

end Draft

end Mentions

theorem stepClosed_keepsAttached (ctx : Context) :
    StepClosed ctx Frame.Within Draft.KeepsAttached where
  refl d := ⟨Nat.le_refl _, fun _ _ => rfl, fun h => h⟩
  trans h h' :=
    ⟨Nat.le_trans h.1 h'.1,
      fun id hid => (h'.2.1 id (Nat.lt_of_lt_of_le hid h.1)).trans (h.2.1 id hid),
      fun hd => h'.2.2 (h.2.2 hd)⟩
  valid hv h := ⟨Nat.lt_of_lt_of_le hv.1 h.1, Nat.lt_of_lt_of_le hv.2 h.1⟩
  loosen hv := hv
  cursor d cursor := ⟨Nat.le_refl _, fun _ _ => rfl, fun h => h⟩
  declare frame d kind attrs inner loc? first? last? hv := by
    have hsize := d.size_declare ctx frame (isLoose frame attrs d.tree) kind attrs inner loc? first? last?
    refine ⟨?_, Frame.within_inside hv hsize _ _⟩
    exact (d.gains_declare ctx frame _ kind attrs inner hv.1 loc? first? last?).keepsAttached
      fun mention h => d.mem_mentions_declare ctx frame _ kind attrs inner loc? first? last? h
  declareTemplate frame d kind attrs loc? last? hv := by
    have hsize := d.size_declareTemplate ctx frame (frame.detached || attrs.isImplicit) kind attrs loc? last?
    refine ⟨?_, Frame.within_inside hv hsize _ _⟩
    apply (d.gains_declareTemplate ctx frame _ kind attrs hv.1 loc? last?).keepsAttached
    rw [Draft.mentions_declareTemplate]
    exact fun mention h => Or.inl h
  mergePattern frame d kind attrs inner hv := by
    have hparent : ∀ id, (d.mergePattern frame.parent kind attrs inner).tree.lexicalParent? id =
        d.tree.lexicalParent? id := by
      intro id
      rw [lexicalParent?_eq_shape, Draft.shape?_mergePattern, ← lexicalParent?_eq_shape]
    refine ⟨Nat.le_of_eq (d.size_mergePattern kind attrs inner frame.parent).symm, fun id _ => hparent id, ?_⟩
    intro hd mention hmention
    rw [Draft.mentions_mergePattern] at hmention
    rw [hparent]
    exact hd mention hmention
  state frame d kind attrs first? last? hv _ := by
    have hsize := d.size_state ctx frame kind attrs first? last?
    refine ⟨?_, Frame.within_inside hv hsize _ _⟩
    apply (d.gains_state ctx frame kind attrs hv.1 first? last?).keepsAttached
    rw [Draft.mentions_state]
    exact fun mention h => Or.inl h

theorem mentionsAttached_buildRoot (ctx : Context) (attrs : Attrs) (inner : List Node) :
    (buildRoot ctx (.mk attrs inner)).MentionsAttached := by
  have hwithin : Frame.Within ⟨0, 0, false⟩ (startDraft ctx attrs) := by
    rw [Frame.Within, size_startDraft]
    exact ⟨Nat.one_pos, Nat.one_pos⟩
  rw [buildRoot_eq]
  apply (((stepClosed_keepsAttached ctx).keepsTo inner).row _ _ hwithin).2.2
  intro mention hmention
  rw [startDraft, Draft.mentions_register] at hmention
  cases hmention

section Links

variable (ctx : Context) (d : Draft) (t : Tree) (k : NodeId)

theorem shape?_linkScopes : (linkScopes d t).shape? k = t.shape? k :=
  view_linkScopes (·.shape? k) d t fun t id scope => shape?_setSemanticParent t id k scope

theorem shape?_linkGroups (groups : List (NodeId × List NodeId)) : (linkGroups t groups).shape? k = t.shape? k :=
  view_linkGroups (·.shape? k) t (fun t id target => shape?_setCanonical t id k target)
    (fun t id target => shape?_setDefinition t id k target) groups

theorem shape?_linkReferences : (linkReferences d t).shape? k = t.shape? k :=
  view_linkReferences (·.shape? k) d t fun t id target => shape?_setReferenced t id k target

theorem shape?_linkConstructs : (linkConstructs d t).shape? k = t.shape? k :=
  view_linkConstructs (·.shape? k) d t fun t id target => shape?_setReferenced t id k target

end Links

section TypeUse

variable (ctx : Context) (t : Tree)

theorem size_addTypeUse (use : TypeUse) : (addTypeUse ctx t use).size = t.size + 1 := by
  simp [addTypeUse, setReferenced]

theorem shape?_addTypeUse {use : TypeUse} (howner : use.owner < t.size) (k : NodeId) :
    (addTypeUse ctx t use).shape? k =
      if k = t.size then some ⟨.typeRef, t.spelling use.target, some use.owner, []⟩
      else if k = use.owner then (t.shape? k).map (·.adopt [t.size])
      else t.shape? k := by
  rw [addTypeUse, shape?_setReferenced, shape?_placeAt, shape?_attach t howner]

end TypeUse

/-- A tree that has gained type references below attached nodes. -/
structure Decorated (t t' : Tree) : Prop where
  size_le : t.size ≤ t'.size
  old : ∀ id, id < t.size → ∃ uses, t'.shape? id = (t.shape? id).map (·.adopt uses) ∧
    (∀ use ∈ uses, t.size ≤ use ∧ use < t'.size) ∧ (t.lexicalParent? id = none → uses = [])
  new : ∀ id, t.size ≤ id → id < t'.size → ∃ spelling owner,
    t'.shape? id = some ⟨.typeRef, spelling, some owner, []⟩ ∧ (t.lexicalParent? owner).isSome

namespace Decorated

variable {t t' : Tree}

theorem of_shape_eq (h : ∀ id, t'.shape? id = t.shape? id) : Decorated t t' where
  size_le := Nat.le_of_eq (size_eq_of_shape?_eq h).symm
  old id _ := ⟨[], by simp [h], by simp, fun _ => rfl⟩
  new id hge hlt := absurd (Nat.lt_of_lt_of_le (size_eq_of_shape?_eq h ▸ hlt) hge) (Nat.lt_irrefl _)

theorem addTypeUse (h : Decorated t t') (ctx : Context) {use : TypeUse}
    (howner : (t.lexicalParent? use.owner).isSome) : Decorated t (addTypeUse ctx t' use) := by
  have hle := h.size_le
  have hlt := lt_size_of_lexicalParent? howner
  have hsize := size_addTypeUse ctx t' use
  have hshape := shape?_addTypeUse ctx t' (Nat.lt_of_lt_of_le hlt hle)
  refine ⟨by lia, ?_, ?_⟩
  · intro id hid
    obtain ⟨uses, huses, hrange, hbare⟩ := h.old id hid
    rw [hshape, if_neg (by lia)]
    by_cases hk : id = use.owner
    · refine ⟨uses ++ [t'.size], ?_, ?_, ?_⟩
      · rw [if_pos hk, huses, Option.map_map]
        congr 1
        funext s
        exact Shape.adopt_adopt s uses [t'.size]
      · intro other hother
        rcases List.mem_append.mp hother with hold | hnew
        · have := hrange other hold
          exact ⟨this.1, by lia⟩
        · obtain rfl := List.mem_singleton.mp hnew
          exact ⟨hle, by lia⟩
      · intro hnone
        rw [← hk, hnone] at howner
        cases howner
    · refine ⟨uses, by rw [if_neg hk, huses], ?_, hbare⟩
      intro other hother
      have := hrange other hother
      exact ⟨this.1, by lia⟩
  · intro id hge hid
    rw [hshape]
    by_cases hk : id = t'.size
    · exact ⟨t'.spelling use.target, use.owner, by rw [if_pos hk], howner⟩
    · have hne : id ≠ use.owner := by lia
      rw [if_neg hk, if_neg hne]
      exact h.new id hge (by lia)

theorem foldl_addTypeUse (ctx : Context) (uses : List TypeUse)
    (huses : ∀ use ∈ uses, (t.lexicalParent? use.owner).isSome) (h : Decorated t t') :
    Decorated t (uses.foldl (Dump.addTypeUse ctx) t') := by
  induction uses generalizing t' with
  | nil => exact h
  | cons use rest ih =>
    obtain ⟨huse, hrest⟩ := List.forall_mem_cons.mp huses
    exact ih hrest (h.addTypeUse ctx huse)

end Decorated

/-- Links decorate the tree that was read. -/
theorem decorated_linked (ctx : Context) {d : Draft} (hd : d.MentionsAttached) :
    Decorated d.tree (d.linked ctx) := by
  have hshape : ∀ k,
      (linkConstructs d (linkReferences d (linkRedeclarations ctx.order d (linkScopes d d.tree)))).shape? k =
        d.tree.shape? k := by
    intro k
    rw [shape?_linkConstructs, shape?_linkReferences, linkRedeclarations, shape?_linkGroups,
      shape?_linkScopes]
  apply Decorated.foldl_addTypeUse ctx _ _ (Decorated.of_shape_eq hshape)
  intro use huse
  obtain ⟨⟨mention, hmention, hsame⟩, -⟩ := mem_typeUses ctx huse
  exact hsame ▸ hd mention hmention

end Dump

end UnitFacts
