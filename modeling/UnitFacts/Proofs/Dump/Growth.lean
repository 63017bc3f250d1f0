import UnitFacts.Dump.Import
import UnitFacts.Proofs.Dump.Reading
import UnitFacts.Proofs.Tree.Growth

/-!
Every tree that is read from a dump is well formed. Reading makes sound changes only: new nodes go
below nodes and into scopes that exist, and all that a draft notes for later is about nodes that
exist. The passes that resolve links then set links between existing nodes, and a scope named by id
is taken over only where no cycle arises.
-/

namespace UnitFacts

open UnitFacts.Tree

section Placing

variable {t : Tree}

/-- A node that is nobody's semantic parent is around itself only. -/
theorem Tree.eq_of_isAround {outer inner : NodeId} (h : ∀ k, ¬ t.Encloses outer k)
    (haround : t.IsAround outer inner) : inner = outer := by
  rcases haround.cases_head with heq | ⟨k, hstep, -⟩
  · exact heq.symm
  · exact absurd hstep (h k)

/-- Adding a node for a frame is sound if parent and scope of the frame exist. -/
theorem Tree.growsTo_create (ht : t.Sound) {parent scope : NodeId} (hp : parent < t.size)
    (hs : scope < t.size) (detached : Bool) (kind : NodeKind) (spelling : String) :
    t.GrowsTo ((if detached then (t.addLoose (some scope) kind spelling).2
      else (t.attach parent kind spelling).2).setSemanticParent t.nextId (some scope)) := by
  have hadd : ∃ edit : Edit, edit.IsSound t ∧ edit.isMessage = false ∧
      (if detached then (t.addLoose (some scope) kind spelling).2
        else (t.attach parent kind spelling).2) = edit.apply t := by
    cases detached with
    | true => exact ⟨.addLoose (some scope) kind spelling, by simpa [Edit.IsSound] using hs, rfl, rfl⟩
    | false => exact ⟨.attach parent kind spelling, hp, rfl, rfl⟩
  obtain ⟨edit, hedit, hm, heq⟩ := hadd
  have hsize : (edit.apply t).size = t.size + 1 := by
    rw [← heq]
    cases detached <;> simp
  -- no node has the new one as its semantic parent
  have hfresh : ∀ k, ¬ (edit.apply t).Encloses t.size k := by
    intro k hk
    have hparent : (edit.apply t).semanticParent? k = if k = t.size then (if detached then some scope
        else t.scopeFor? parent) else t.semanticParent? k := by
      rw [← heq]
      cases detached
      · exact t.semanticParent?_attach parent kind spelling hp k
      · exact t.semanticParent?_addLoose (some scope) kind spelling k
    rw [Encloses, hparent] at hk
    split at hk
    · cases detached with
      | true => exact Nat.lt_irrefl _ (Option.some.inj hk ▸ hs)
      | false => exact Nat.lt_irrefl _ (ht.scopeFor?_lt hp hk)
    · exact Nat.lt_irrefl _ (ht.isScoped.lt _ _ hk)
  rw [heq]
  refine (GrowsTo.step edit hedit hm).trans
    (GrowsTo.step (.setSemanticParent t.nextId (some scope)) ⟨?_, ?_⟩ rfl)
  · rw [hsize]
    exact Nat.lt_succ_self _
  · intro s h
    obtain rfl := Option.some.inj h
    refine ⟨by rw [hsize]; exact Nat.lt_succ_of_lt hs, fun haround => ?_⟩
    exact Nat.lt_irrefl _ (Tree.eq_of_isAround hfresh haround ▸ hs)

namespace Dump

theorem fileIndex_withFile_lt (ctx : Context) (hf : 0 < t.files.length) (path : String) :
    fileIndex ctx (withFile ctx t path) path < (withFile ctx t path).files.length := by
  unfold fileIndex withFile
  split
  · exact hf
  · obtain ⟨file, hfile⟩ := t.exists_fileId?_addFile path (ctx.headers.isSystem path)
    rw [hfile, Option.getD_some]
    exact (List.findIdx?_eq_some_iff_getElem.mp hfile).1

theorem growsTo_withFile (ctx : Context) (t : Tree) (path : String) :
    t.GrowsTo (withFile ctx t path) := by
  unfold withFile
  split
  · exact GrowsTo.refl t
  · exact GrowsTo.step (.addFile path (ctx.headers.isSystem path)) trivial rfl

theorem growsTo_placeAt (ctx : Context) (hf : 0 < t.files.length) {id : NodeId} (hid : id < t.size)
    (path : String) (line col : UInt32) : t.GrowsTo (placeAt ctx t id path line col) := by
  have hfile := growsTo_withFile ctx t path
  refine hfile.trans (GrowsTo.step (.place id _ line col) ⟨?_, ?_⟩ rfl)
  · exact Nat.lt_of_lt_of_le hid hfile.size_le
  · exact fileIndex_withFile_lt ctx hf path

end Dump

end Placing

namespace Dump

/-- All that a draft has noted is about nodes of its tree. -/
structure Draft.Bounded (d : Draft) : Prop where
  ids : ∀ entry ∈ d.ids, entry.2 < d.tree.size
  references : ∀ link ∈ d.references, link.1 < d.tree.size
  previous : ∀ link ∈ d.previous, link.1 < d.tree.size
  contexts : ∀ link ∈ d.contexts, link.1 < d.tree.size
  ctorTypes : ∀ entry ∈ d.ctorTypes, entry.1 < d.tree.size
  constructs : ∀ construct ∈ d.constructs, construct.node < d.tree.size
  mentions : ∀ mention ∈ d.mentions, mention.owner < d.tree.size

/-- The draft of a document of the given main file, at any moment of reading it. -/
structure Draft.Sound (mainFile : String) (d : Draft) : Prop where
  grown : (Tree.start mainFile).GrowsTo d.tree
  bounded : d.Bounded

namespace Draft.Sound

variable {mainFile : String} {d : Draft}

theorem tree_sound (hd : d.Sound mainFile) :
    d.tree.Sound := hd.grown.sound (Tree.Sound.start mainFile)

theorem files_pos (hd : d.Sound mainFile) : 0 < d.tree.files.length :=
  Nat.lt_of_lt_of_le (Nat.succ_pos 0) hd.grown.length_files_le

theorem withCursor (hd : d.Sound mainFile) (cursor : LocCursor) :
    ({ d with cursor := cursor } : Draft).Sound mainFile :=
  ⟨hd.grown, hd.bounded.1, hd.bounded.2, hd.bounded.3, hd.bounded.4, hd.bounded.5, hd.bounded.6,
    hd.bounded.7⟩

theorem edit (hd : d.Sound mainFile) (change : Tree → Tree) (h : d.tree.GrowsTo (change d.tree)) :
    (d.edit change).Sound mainFile := by
  have hle := h.size_le
  refine ⟨hd.grown.trans h, ?_, ?_, ?_, ?_, ?_, ?_, ?_⟩ <;> intro entry hentry
  · exact Nat.lt_of_lt_of_le (hd.bounded.ids entry hentry) hle
  · exact Nat.lt_of_lt_of_le (hd.bounded.references entry hentry) hle
  · exact Nat.lt_of_lt_of_le (hd.bounded.previous entry hentry) hle
  · exact Nat.lt_of_lt_of_le (hd.bounded.contexts entry hentry) hle
  · exact Nat.lt_of_lt_of_le (hd.bounded.ctorTypes entry hentry) hle
  · exact Nat.lt_of_lt_of_le (hd.bounded.constructs entry hentry) hle
  · exact Nat.lt_of_lt_of_le (hd.bounded.mentions entry hentry) hle

theorem register (hd : d.Sound mainFile) (attrs : Attrs) {id : NodeId} (hid : id < d.tree.size) :
    (d.register attrs id).Sound mainFile := by
  unfold Draft.register
  split
  · refine ⟨hd.grown, { hd.bounded with ids := ?_ }⟩
    intro entry hentry
    rcases List.mem_cons.mp hentry with rfl | hold
    · exact hid
    · exact hd.bounded.ids entry hold
  · exact hd

theorem noteLinks (hd : d.Sound mainFile) (attrs : Attrs) {id : NodeId} (hid : id < d.tree.size) :
    (d.noteLinks attrs id).Sound mainFile := by
  refine ⟨hd.grown, { hd.bounded with previous := ?_, contexts := ?_ }⟩
  · intro link hlink
    rcases List.mem_append.mp hlink with hnew | hold
    · obtain ⟨name, -, rfl⟩ := Option.map_eq_some_iff.mp (Option.mem_toList.mp hnew)
      exact hid
    · exact hd.bounded.previous link hold
  · intro link hlink
    rcases List.mem_append.mp hlink with hnew | hold
    · obtain ⟨name, -, rfl⟩ := Option.map_eq_some_iff.mp (Option.mem_toList.mp hnew)
      exact hid
    · exact hd.bounded.contexts link hold

theorem place (hd : d.Sound mainFile) (ctx : Context) {id : NodeId} (hid : id < d.tree.size)
    (at? end? : Option Loc) : (d.place ctx id at? end?).Sound mainFile := by
  have hend : ∀ {t : Tree} (loc : Loc), d.tree.GrowsTo t →
      d.tree.GrowsTo (t.setEndLine id loc.spelling.line) := by
    intro t loc ht
    have hlt : id < t.size := Nat.lt_of_lt_of_le hid ht.size_le
    exact ht.trans (GrowsTo.step (.setEndLine id loc.spelling.line) hlt rfl)
  apply hd.edit
  cases at? with
  | none =>
    cases end? with
    | none => exact GrowsTo.refl _
    | some last => exact hend last (GrowsTo.refl _)
  | some loc =>
    have hat := growsTo_placeAt ctx hd.files_pos hid loc.expansion.file loc.spelling.line loc.spelling.col
    cases end? with
    | none => exact hat
    | some last => exact hend last hat

theorem create (hd : d.Sound mainFile) {frame : Frame} (hp : frame.parent < d.tree.size)
    (hs : frame.scope < d.tree.size) (detached : Bool) (kind : NodeKind) (spelling : String) :
    (d.create frame detached kind spelling).2.Sound mainFile := by
  rw [Draft.snd_create]
  exact hd.edit _ (growsTo_create hd.tree_sound hp hs detached kind spelling)

end Draft.Sound

@[simp] theorem size_withFile (ctx : Context) (t : Tree) (path : String) :
    (withFile ctx t path).size = t.size := by
  unfold withFile
  split <;> simp

@[simp] theorem size_placeAt (ctx : Context) (t : Tree) (id : NodeId) (path : String)
    (line col : UInt32) :
    (placeAt ctx t id path line col).size = t.size := by
  simp [placeAt, Tree.place]

section Size

variable (ctx : Context) (d : Draft) (frame : Frame) (detached : Bool) (kind : NodeKind)
  (attrs : Attrs)
  (inner : List Node) (id : NodeId)

@[simp] theorem Draft.size_create (spelling : String) :
    (d.create frame detached kind spelling).2.tree.size = d.tree.size + 1 := by
  rw [Draft.snd_create]
  cases detached <;> simp [Draft.edit, Tree.setSemanticParent]

@[simp] theorem Draft.size_place (at? end? : Option Loc) :
    (d.place ctx id at? end?).tree.size = d.tree.size := by
  cases at? <;> cases end? <;> simp [Draft.place, Draft.edit, Tree.setEndLine]

@[simp] theorem Draft.size_setEnd (end? : Option Loc) :
    (d.setEnd id end?).tree.size = d.tree.size := by
  cases end? <;> simp [Draft.setEnd, Draft.edit, Tree.setEndLine]

@[simp] theorem Draft.size_markIf (cond : Bool) : (d.markIf id cond).tree.size = d.tree.size := by
  cases cond <;> simp [Draft.markIf, Draft.edit, Tree.markDefinition]

@[simp] theorem Draft.size_declareTemplate (loc? last? : Option Loc) :
    (d.declareTemplate ctx frame detached kind attrs loc? last?).2.tree.size = d.tree.size + 1 := by
  simp [Draft.snd_declareTemplate]

@[simp] theorem Draft.size_declare (loc? first? last? : Option Loc) :
    (d.declare ctx frame detached kind attrs inner loc? first? last?).2.tree.size = d.tree.size + 1 := by
  rw [Draft.declare_eq]
  simp

@[simp] theorem Draft.size_mergePattern :
    (d.mergePattern id kind attrs inner).tree.size = d.tree.size := by
  rw [Draft.mergePattern_eq]
  simp

@[simp] theorem Draft.size_state (first? last? : Option Loc) :
    (d.state ctx frame kind attrs first? last?).2.tree.size = d.tree.size + 1 := by
  rw [Draft.snd_state]
  split <;> simp [Draft.edit, Tree.setTokens]

end Size

theorem owner_mention? {ctx : Context} {attrs : Attrs} {kind : NodeKind} {owner : NodeId}
    {first? name? last? : Option Loc} {m : Mention}
    (h : mention? ctx attrs kind owner first? name? last? = some m) : m.owner = owner := by
  unfold mention? at h
  grind

theorem node_construct? {attrs : Attrs} {id : NodeId} {c : Construct}
    (h : construct? attrs id = some c) :
    c.node = id := by
  unfold construct? at h
  split at h
  · obtain ⟨type, -, rfl⟩ := Option.map_eq_some_iff.mp h
    rfl
  · obtain ⟨type, -, rfl⟩ := Option.map_eq_some_iff.mp h
    rfl
  · cases h

namespace Draft.Sound

variable {mainFile : String} {d : Draft} (hd : d.Sound mainFile)
include hd

theorem setEnd {id : NodeId} (hid : id < d.tree.size) (end? : Option Loc) :
    (d.setEnd id end?).Sound mainFile := by
  cases end? with
  | none => exact hd
  | some last =>
    exact hd.edit (·.setEndLine id last.spelling.line)
      (GrowsTo.step (.setEndLine id last.spelling.line) hid rfl)

theorem markIf {id : NodeId} (hid : id < d.tree.size) (cond : Bool) :
    (d.markIf id cond).Sound mainFile := by
  unfold Draft.markIf
  split
  · exact hd.edit _ (GrowsTo.step (.markDefinition id) hid rfl)
  · exact hd

/-- Notes about existing nodes may be added. -/
theorem note (references ctorTypes : List (NodeId × String)) (constructs : List Construct)
    (mentions : List Mention) (href : ∀ link ∈ references, link.1 < d.tree.size)
    (hctor : ∀ entry ∈ ctorTypes, entry.1 < d.tree.size)
    (hcons : ∀ construct ∈ constructs, construct.node < d.tree.size)
    (hment : ∀ mention ∈ mentions, mention.owner < d.tree.size) :
    ({ d with
        references := references ++ d.references
        ctorTypes := ctorTypes ++ d.ctorTypes
        constructs := constructs ++ d.constructs
        mentions := mentions ++ d.mentions } : Draft).Sound mainFile where
  grown := hd.grown
  bounded :=
    { hd.bounded with
      references := List.forall_mem_append.mpr ⟨href, hd.bounded.references⟩
      ctorTypes := List.forall_mem_append.mpr ⟨hctor, hd.bounded.ctorTypes⟩
      constructs := List.forall_mem_append.mpr ⟨hcons, hd.bounded.constructs⟩
      mentions := List.forall_mem_append.mpr ⟨hment, hd.bounded.mentions⟩ }

variable (ctx : Context) {frame : Frame} (kind : NodeKind) (attrs : Attrs) (inner : List Node)

theorem declareTemplate (hp : frame.parent < d.tree.size) (hs : frame.scope < d.tree.size)
    (detached : Bool) (loc? last? : Option Loc) :
    (d.declareTemplate ctx frame detached kind attrs loc? last?).2.Sound mainFile := by
  rw [Draft.snd_declareTemplate]
  have hcreate := hd.create hp hs detached kind attrs.name
  have hid : d.tree.nextId < d.tree.size + 1 := Nat.lt_succ_self _
  have hregister := hcreate.register attrs (by simpa using hid)
  have hplace := hregister.place ctx (by simpa using hid) loc? last?
  exact hplace.noteLinks attrs (by simpa using hid)

theorem declare (hp : frame.parent < d.tree.size) (hs : frame.scope < d.tree.size)
    (detached : Bool) (loc? first? last? : Option Loc) :
    (d.declare ctx frame detached kind attrs inner loc? first? last?).2.Sound mainFile := by
  have hid : d.tree.nextId < d.tree.size + 1 := Nat.lt_succ_self _
  have hnode := hd.declareTemplate ctx kind attrs hp hs detached loc? last?
  have hmark := hnode.markIf (by simpa using hid)
    (isDefining kind attrs inner || (kind = .enumDecl && closesBody ctx last?))
  rw [Draft.declare_eq]
  refine hmark.note [] _ [] _ ?_ ?_ ?_ ?_
  · intro link hlink
    cases hlink
  · intro entry hentry
    obtain ⟨type, -, rfl⟩ := Option.map_eq_some_iff.mp (Option.mem_toList.mp hentry)
    simpa using hid
  · intro construct hconstruct
    cases hconstruct
  · intro mention hmention
    have hsome := Option.mem_toList.mp hmention
    split at hsome
    · cases hsome
    · rw [owner_mention? hsome]
      simpa using hid

theorem mergePattern {id : NodeId} (hid : id < d.tree.size) :
    (d.mergePattern id kind attrs inner).Sound mainFile := by
  have hregister := (hd.withCursor (d.cursor.afterAttrs attrs)).register attrs hid
  have hend := hregister.setEnd (by simpa using hid) (d.cursor.lastOf attrs)
  have hnote := hend.noteLinks attrs (by simpa using hid)
  rw [Draft.mergePattern_eq]
  exact hnote.markIf (by simpa using hid) _

theorem state (hp : frame.parent < d.tree.size) (hs : frame.scope < d.tree.size)
    (first? last? : Option Loc) : (d.state ctx frame kind attrs first? last?).2.Sound mainFile := by
  have hid : d.tree.nextId < d.tree.size + 1 := Nat.lt_succ_self _
  have hcreate := hd.create hp hs false kind (statementSpelling kind attrs)
  have hregister := hcreate.register attrs (by simpa using hid)
  have hplace := hregister.place ctx (by simpa using hid)
    (statementPosition ctx kind attrs first? last?) last?
  have hnote := hplace.note ((linkTarget? attrs).map fun target => (d.tree.nextId, target)).toList []
    (construct? attrs d.tree.nextId).toList []
    (by
      intro link hlink
      obtain ⟨target, -, rfl⟩ := Option.map_eq_some_iff.mp (Option.mem_toList.mp hlink)
      simpa using hid)
    (by simp)
    (by
      intro construct hconstruct
      rw [node_construct? (Option.mem_toList.mp hconstruct)]
      simpa using hid)
    (by simp)
  rw [Draft.snd_state]
  split
  · exact hnote.edit _ (GrowsTo.step (.setTokens d.tree.nextId _) (by simpa [Edit.IsSound] using hid) rfl)
  · exact hnote

end Draft.Sound

/-- A frame whose parent and scope exist. -/
def Frame.Within (frame : Frame) (d : Draft) : Prop :=
  frame.parent < d.tree.size ∧ frame.scope < d.tree.size

theorem Frame.within_inside {frame : Frame} {d d' : Draft} (hv : frame.Within d)
    (hsize : d'.tree.size = d.tree.size + 1) (kind : NodeKind) (detached : Bool) :
    (frame.inside d kind detached).Within d' := by
  have hid : d.tree.nextId < d'.tree.size := hsize ▸ Nat.lt_succ_self _
  refine ⟨hid, ?_⟩
  unfold Frame.inside
  split
  · exact hid
  · exact hsize ▸ Nat.lt_succ_of_lt hv.2

/-- Reading on keeps a draft sound and loses no node. -/
def Draft.LeadsTo (mainFile : String) (d d' : Draft) : Prop :=
  d.tree.size ≤ d'.tree.size ∧ (d.Sound mainFile → d'.Sound mainFile)

theorem stepClosed_leadsTo (ctx : Context) (mainFile : String) :
    StepClosed ctx Frame.Within (Draft.LeadsTo mainFile) where
  refl d := ⟨Nat.le_refl _, fun h => h⟩
  trans h h' := ⟨Nat.le_trans h.1 h'.1, fun hd => h'.2 (h.2 hd)⟩
  valid hv h := ⟨Nat.lt_of_lt_of_le hv.1 h.1, Nat.lt_of_lt_of_le hv.2 h.1⟩
  loosen hv := hv
  cursor d cursor := ⟨Nat.le_refl _, fun hd => hd.withCursor cursor⟩
  declare frame d kind attrs inner loc? first? last? hv := by
    have hsize := d.size_declare ctx frame (isLoose frame attrs d.tree) kind attrs inner loc? first? last?
    refine ⟨⟨hsize ▸ Nat.le_succ _, fun hd => ?_⟩, Frame.within_inside hv hsize _ _⟩
    exact hd.declare ctx kind attrs inner hv.1 hv.2 _ loc? first? last?
  declareTemplate frame d kind attrs loc? last? hv := by
    have hsize := d.size_declareTemplate ctx frame (frame.detached || attrs.isImplicit) kind attrs loc? last?
    refine ⟨⟨hsize ▸ Nat.le_succ _, fun hd => ?_⟩, Frame.within_inside hv hsize _ _⟩
    exact hd.declareTemplate ctx kind attrs hv.1 hv.2 _ loc? last?
  mergePattern frame d kind attrs inner hv :=
    ⟨Nat.le_of_eq (d.size_mergePattern kind attrs inner frame.parent).symm,
      fun hd => hd.mergePattern kind attrs inner hv.1⟩
  state frame d kind attrs first? last? hv _ := by
    have hsize := d.size_state ctx frame kind attrs first? last?
    refine ⟨⟨hsize ▸ Nat.le_succ _, fun hd => ?_⟩, Frame.within_inside hv hsize _ _⟩
    exact hd.state ctx kind attrs hv.1 hv.2 first? last?

theorem size_startDraft (ctx : Context) (attrs : Attrs) : (startDraft ctx attrs).tree.size = 1 := by
  simp [startDraft, Tree.start, Tree.size]

theorem sound_buildRoot (ctx : Context) (root : Node) :
    (buildRoot ctx root).Sound ctx.mainFile := by
  obtain ⟨attrs, inner⟩ := root
  have hempty : ({ tree := Tree.start ctx.mainFile, cursor := LocCursor.afterAttrs {} attrs } : Draft).Sound
      ctx.mainFile := ⟨GrowsTo.refl _, by constructor <;> simp⟩
  have hstart : (startDraft ctx attrs).Sound ctx.mainFile := hempty.register attrs (Nat.succ_pos 0)
  have hwithin : Frame.Within ⟨0, 0, false⟩ (startDraft ctx attrs) := by
    rw [Frame.Within, size_startDraft]
    exact ⟨Nat.one_pos, Nat.one_pos⟩
  rw [buildRoot_eq]
  exact (((stepClosed_leadsTo ctx ctx.mainFile).keepsTo inner).row _ _ hwithin).2 hstart

end Dump

end UnitFacts
