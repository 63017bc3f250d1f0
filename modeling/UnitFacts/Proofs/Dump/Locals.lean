import UnitFacts.Proofs.Dump.Names
import UnitFacts.Proofs.Extract.Calls
import UnitFacts.Proofs.Extract.Symbols

/-!
Local variables of a unit. What stands directly inside a node has that node as its scope if the node opens one, and
otherwise the scope of the node. So the innermost scope around a variable is the first node above it that opens a
scope, and a variable of a body, however deep, belongs to the function or the lambda of that body.

Whether a variable is local is asked of the nodes that own a body. All bodies belong to such nodes but those of
conversion functions: their variables are reported, and uses of them too.
-/

namespace UnitFacts

open UnitFacts.Tree

namespace Dump

/-- Kinds with bodies. -/
def hasBody (kind : NodeKind) : Bool := kind.isCallable || kind = .lambdaExpr

/-- On the way up from a node to the function or the lambda `owner` nothing opens a scope. -/
inductive LocalTo (t : Tree) (owner : NodeId) : NodeId → Prop
  | inside {id : NodeId} : t.lexicalParent? id = some owner → t.kindIn hasBody owner = true → LocalTo t owner id
  | deeper {id parent : NodeId} : t.lexicalParent? id = some parent → t.kindIn opensScope parent = false →
      LocalTo t owner parent → LocalTo t owner id

/-- Nothing is reported of the variables of bodies, those of conversion functions aside. -/
structure LocalsConfined (t : Tree) : Prop where
  scope : ∀ v owner, t.kind? v = some .varDecl → LocalTo t owner v → t.semanticParent? v = some owner
  verdict : ∀ v owner, t.kind? v = some .varDecl → LocalTo t owner v → t.symbolVerdict v =
    if t.kind? owner = some .conversionFunction then .report .varDecl else .skip .localVariable
  nonlocal_iff : ∀ v owner, t.kind? v = some .varDecl → LocalTo t owner v →
    (t.IsNonlocal v ↔ t.kind? owner = some .conversionFunction ∧ t.inSystemHeader v = false)
  symbols : ∀ file options, ∀ fact ∈ (t.extract file options).symbols,
    ∃ v, t.RootPath v.node v.path ∧ t.ReportsSymbol v fact ∧
      ∀ owner, t.kind? v.node = some .varDecl → LocalTo t owner v.node → t.kind? owner = some .conversionFunction
  references : ∀ file options, ∀ fact ∈ (t.extract file options).references,
    ∃ v target, t.RootPath v.node v.path ∧ t.Uses v target fact.usage ∧ fact.symbol = t.qualifiedName target ∧
      ∀ owner, t.kind? target = some .varDecl → LocalTo t owner target → t.kind? owner = some .conversionFunction
  unreported : ∀ v owner, t.kind? v = some .varDecl → LocalTo t owner v →
    t.kind? owner ≠ some .conversionFunction →
    (∀ w fact, t.ReportsSymbol w fact → w.node ≠ v) ∧ ∀ w usage, ¬ t.Uses w v usage

/-! ### Scopes -/

/-- The scope of what stands directly inside a node. -/
def innerScope? (t : Tree) (id : NodeId) : Option NodeId :=
  if t.kindIn opensScope id then some id else t.semanticParent? id

/-- The scope of every attached node is that of the inside of the node that it stands below. -/
def Aligned (t : Tree) : Prop :=
  ∀ id parent, t.lexicalParent? id = some parent → parent < t.size ∧ t.semanticParent? id = innerScope? t parent

theorem innerScope?_congr {t t' : Tree} {id : NodeId} (h : t'.label? id = t.label? id) :
    innerScope? t' id = innerScope? t id := by
  unfold innerScope?
  rw [kindIn, kind?_eq_label, semanticParent?_eq_label, h, ← kind?_eq_label, ← semanticParent?_eq_label]
  rfl

/-- A frame of attached nodes has the scope of the inside of its parent. -/
def Frame.Fits (frame : Frame) (d : Draft) : Prop :=
  frame.Within d ∧ (frame.detached = false → innerScope? d.tree frame.parent = some frame.scope)

/-- Reading on leaves the nodes of a draft their labels and keeps scopes aligned. -/
structure Draft.AlignsTo (d d' : Draft) : Prop where
  size_le : d.tree.size ≤ d'.tree.size
  old : ∀ id, id < d.tree.size → d'.tree.label? id = d.tree.label? id
  aligned : Aligned d.tree → Aligned d'.tree

theorem Draft.AlignsTo.of_label_eq {d d' : Draft} (hsize : d'.tree.size = d.tree.size)
    (hlabel : ∀ id, d'.tree.label? id = d.tree.label? id) : d.AlignsTo d' where
  size_le := Nat.le_of_eq hsize.symm
  old id _ := hlabel id
  aligned h id parent hparent := by
    rw [lexicalParent?_eq_label, hlabel, ← lexicalParent?_eq_label] at hparent
    obtain ⟨hlt, hscope⟩ := h id parent hparent
    refine ⟨hsize.symm ▸ hlt, ?_⟩
    rw [innerScope?_congr (hlabel parent), ← hscope, semanticParent?_eq_label, hlabel, ← semanticParent?_eq_label]

theorem Frame.Fits.mono {frame : Frame} {d d' : Draft} (hv : frame.Fits d) (h : d.AlignsTo d') : frame.Fits d' := by
  refine ⟨⟨Nat.lt_of_lt_of_le hv.1.1 h.size_le, Nat.lt_of_lt_of_le hv.1.2 h.size_le⟩, fun hattached => ?_⟩
  rw [innerScope?_congr (h.old frame.parent hv.1.1), hv.2 hattached]

section New

variable {frame : Frame} {d d' : Draft} (hv : frame.Fits d) (detached : Bool) {kind : NodeKind} {spelling : String}
  {tokens : List String} (hsize : d'.tree.size = d.tree.size + 1)
  (hlabel : ∀ k, d'.tree.label? k = if k = d.tree.size then
    some ⟨kind, spelling, if detached then none else some frame.parent, some frame.scope, tokens⟩
    else d.tree.label? k)
include hv hsize hlabel

theorem Draft.AlignsTo.of_new (hloose : frame.detached = true → detached = true) : d.AlignsTo d' := by
  have hold : ∀ id, id < d.tree.size → d'.tree.label? id = d.tree.label? id := by
    intro id hid
    rw [hlabel, if_neg (Nat.ne_of_lt hid)]
  refine ⟨hsize ▸ Nat.le_succ _, hold, fun haligned id parent hparent => ?_⟩
  by_cases hid : id = d.tree.size
  · cases hdetached : detached with
    | true => simp [lexicalParent?_eq_label, hlabel, hid, hdetached] at hparent
    | false =>
      have hattached : frame.detached = false := by
        cases hframe : frame.detached with
        | false => rfl
        | true => exact (hloose hframe).symm.trans hdetached
      obtain rfl : frame.parent = parent := by
        simpa [lexicalParent?_eq_label, hlabel, hid, hdetached] using hparent
      refine ⟨hsize ▸ Nat.lt_succ_of_lt hv.1.1, ?_⟩
      rw [innerScope?_congr (hold _ hv.1.1), hv.2 hattached]
      simp [semanticParent?_eq_label, hlabel, hid]
  · rw [lexicalParent?_eq_label, hlabel, if_neg hid, ← lexicalParent?_eq_label] at hparent
    obtain ⟨hlt, hscope⟩ := haligned id parent hparent
    refine ⟨hsize ▸ Nat.lt_succ_of_lt hlt, ?_⟩
    rw [innerScope?_congr (hold parent hlt), ← hscope, semanticParent?_eq_label, hlabel, if_neg hid,
      ← semanticParent?_eq_label]

theorem Frame.Fits.inside : (frame.inside d kind detached).Fits d' := by
  refine ⟨Frame.within_inside hv.1 hsize kind detached, fun _ => ?_⟩
  have hnew : d'.tree.kind? d.tree.size = some kind ∧ d'.tree.semanticParent? d.tree.size = some frame.scope := by
    simp [kind?_eq_label, semanticParent?_eq_label, hlabel]
  have hid : (frame.inside d kind detached).parent = d.tree.size := rfl
  have hscope : (frame.inside d kind detached).scope = if opensScope kind then d.tree.size else frame.scope := rfl
  rw [hid, hscope, innerScope?, kindIn, hnew.1, hnew.2, Option.any_some]
  split <;> rfl

end New

theorem stepClosed_alignsTo (ctx : Context) : StepClosed ctx Frame.Fits Draft.AlignsTo where
  refl _ := .of_label_eq rfl fun _ => rfl
  trans h h' :=
    ⟨Nat.le_trans h.size_le h'.size_le,
      fun id hid => (h'.old id (Nat.lt_of_lt_of_le hid h.size_le)).trans (h.old id hid),
      fun hd => h'.aligned (h.aligned hd)⟩
  valid := Frame.Fits.mono
  loosen hv := ⟨hv.1, nofun⟩
  cursor _ _ := .of_label_eq rfl fun _ => rfl
  declare frame d kind attrs inner loc? first? last? hv := by
    have hsize := d.size_declare ctx frame (isLoose frame attrs d.tree) kind attrs inner loc? first? last?
    have hlabel := fun k => d.label?_declare ctx frame (isLoose frame attrs d.tree) kind attrs inner k hv.1.1 loc?
      first? last?
    exact ⟨.of_new hv _ hsize hlabel fun hdetached => by simp [isLoose, hdetached], hv.inside _ hsize hlabel⟩
  declareTemplate frame d kind attrs loc? last? hv := by
    have hsize := d.size_declareTemplate ctx frame (frame.detached || attrs.isImplicit) kind attrs loc? last?
    have hlabel := fun k => d.label?_declareTemplate ctx frame (frame.detached || attrs.isImplicit) kind attrs k
      hv.1.1 loc? last?
    exact ⟨.of_new hv _ hsize hlabel fun hdetached => by simp [hdetached], hv.inside _ hsize hlabel⟩
  mergePattern frame d kind attrs inner _ :=
    .of_label_eq (d.size_mergePattern kind attrs inner frame.parent) fun k =>
      d.label?_mergePattern kind attrs inner frame.parent k
  state frame d kind attrs first? last? hv hattached := by
    have hsize := d.size_state ctx frame kind attrs first? last?
    have hlabel := fun k => d.label?_state ctx frame kind attrs k hv.1.1 first? last?
    exact ⟨.of_new hv false hsize hlabel fun hdetached => hattached.symm.trans hdetached,
      hv.inside false hsize hlabel⟩

theorem aligned_buildRoot (ctx : Context) (root : Node) : Aligned (buildRoot ctx root).tree := by
  obtain ⟨attrs, inner⟩ := root
  have hfits : Frame.Fits ⟨0, 0, false⟩ (startDraft ctx attrs) := by
    rw [Frame.Fits, Frame.Within, size_startDraft, startDraft, Draft.tree_register]
    exact ⟨⟨Nat.one_pos, Nat.one_pos⟩, fun _ => rfl⟩
  rw [buildRoot_eq]
  refine (((stepClosed_alignsTo ctx).keepsTo inner).row _ _ hfits).aligned fun id parent hparent => ?_
  rw [startDraft, Draft.tree_register] at hparent
  cases id <;> simp [Tree.start, lexicalParent?, node?] at hparent

/-! ### Variables of bodies -/

/-- Of the kinds with bodies, conversion functions alone do not count as owners of one. -/
theorem ownsBody_of_hasBody {kind : NodeKind} (h : hasBody kind = true) :
    kind.ownsBody = !decide (kind = .conversionFunction) := by
  cases kind <;> first | rfl | cases h

theorem opensScope_of_hasBody {kind : NodeKind} (h : hasBody kind = true) : opensScope kind = true := by
  cases kind <;> first | rfl | cases h

section Variables

variable {t : Tree} {owner v : NodeId}

theorem LocalTo.kindIn_owner (h : LocalTo t owner v) : t.kindIn hasBody owner = true := by
  induction h with
  | inside _ hbody => exact hbody
  | deeper _ _ _ ih => exact ih

theorem Aligned.semanticParent?_of_localTo (ht : Aligned t) (h : LocalTo t owner v) :
    t.semanticParent? v = some owner := by
  induction h with
  | inside hparent hbody =>
    obtain ⟨kind, hkind, hbody⟩ := (Option.any_eq_true ..).mp hbody
    rw [(ht _ _ hparent).2, innerScope?, if_pos]
    simp [kindIn, hkind, opensScope_of_hasBody hbody]
  | deeper hparent hscope _ ih =>
    rw [(ht _ _ hparent).2, innerScope?, hscope, ← ih]
    rfl

theorem isLocal_of_scope (hbody : t.kindIn hasBody owner = true) (hscope : t.semanticParent? v = some owner) :
    t.isLocal v = !decide (t.kind? owner = some .conversionFunction) := by
  obtain ⟨kind, hkind, hbody⟩ := (Option.any_eq_true ..).mp hbody
  simp [isLocal, hscope, kindIn, hkind, ownsBody_of_hasBody hbody]

theorem symbolVerdict_of_scope (hkind : t.kind? v = some .varDecl) (hbody : t.kindIn hasBody owner = true)
    (hscope : t.semanticParent? v = some owner) : t.symbolVerdict v =
      if t.kind? owner = some .conversionFunction then .report .varDecl else .skip .localVariable := by
  rw [symbolVerdict, hkind]
  simp only [isLocal_of_scope hbody hscope]
  by_cases hconversion : t.kind? owner = some .conversionFunction
  · simp [hconversion, NodeKind.bearsSymbol, NodeKind.isAggregate, NodeKind.symbolKind]
  · simp [hconversion, NodeKind.bearsSymbol, NodeKind.isAggregate]

theorem isNonlocal_iff_of_scope (hkind : t.kind? v = some .varDecl) (hbody : t.kindIn hasBody owner = true)
    (hscope : t.semanticParent? v = some owner) :
    t.IsNonlocal v ↔ t.kind? owner = some .conversionFunction ∧ t.inSystemHeader v = false := by
  rw [← isReportedTarget_iff, isReportedTarget, hkind]
  simp only [isLocal_of_scope hbody hscope, Bool.not_not, Bool.and_eq_true, Bool.not_eq_true', decide_eq_true_eq]
  exact and_comm

/-- Where scopes are right, variables of bodies are confined to them. -/
theorem localsConfined_of_scope (ht : t.WellFormed)
    (hscope : ∀ v owner, t.kind? v = some .varDecl → LocalTo t owner v → t.semanticParent? v = some owner) :
    LocalsConfined t := by
  have hverdict := fun v owner (hkind : t.kind? v = some .varDecl) (hlocal : LocalTo t owner v) =>
    symbolVerdict_of_scope hkind hlocal.kindIn_owner (hscope v owner hkind hlocal)
  have hnonlocal := fun v owner (hkind : t.kind? v = some .varDecl) (hlocal : LocalTo t owner v) =>
    isNonlocal_iff_of_scope hkind hlocal.kindIn_owner (hscope v owner hkind hlocal)
  have hreported : ∀ v fact, t.ReportsSymbol v fact → ∀ owner, t.kind? v.node = some .varDecl →
      LocalTo t owner v.node → t.kind? owner = some .conversionFunction := by
    intro v fact hreports owner hkind hlocal
    by_contra hother
    have hskip := hverdict v.node owner hkind hlocal
    rw [if_neg hother, hreports.verdict] at hskip
    cases hskip
  have hused : ∀ w target usage, t.Uses w target usage → ∀ owner, t.kind? target = some .varDecl →
      LocalTo t owner target → t.kind? owner = some .conversionFunction :=
    fun w target usage huse owner hkind hlocal =>
    ((hnonlocal target owner hkind hlocal).mp huse.isNonlocal).1
  refine ⟨hscope, hverdict, hnonlocal, fun file options fact hfact => ?_, fun file options fact hfact => ?_,
    fun v owner hkind hlocal hother => ⟨?_, ?_⟩⟩
  · obtain ⟨v, hv, hreports⟩ := ht.exists_reportsSymbol hfact
    exact ⟨v, hv, hreports, hreported v fact hreports⟩
  · obtain ⟨v, hv, hreports⟩ := ht.exists_reports hfact
    obtain ⟨target, huse, hsymbol⟩ := hreports.use
    exact ⟨v, target, hv, huse, hsymbol, hused v target fact.usage huse⟩
  · rintro w fact hreports rfl
    exact hother (hreported w fact hreports owner hkind hlocal)
  · exact fun w usage huse => hother (hused w v usage huse owner hkind hlocal)

end Variables

section Unit

variable {ctx : Context} {attrs : Attrs} {inner : List Node} {messages : Messages}

/-- A node that was read is as deep in bodies after the links as before. -/
theorem LocalTo.of_treeOf (h : ∀ e ∈ unitInventory ctx attrs inner, e.attrs.parentContext = none) {owner v : NodeId}
    (hlocal : LocalTo (treeOf ctx messages (.mk attrs inner)) owner v)
    (hv : v < (buildRoot ctx (.mk attrs inner)).tree.size) :
    LocalTo (buildRoot ctx (.mk attrs inner)).tree owner v := by
  have haligned := aligned_buildRoot ctx (.mk attrs inner)
  have hsame := fun k hk => label?_treeOf (k := k) messages h hk
  generalize treeOf ctx messages (.mk attrs inner) = t at *
  generalize (buildRoot ctx (.mk attrs inner)).tree = read at *
  have hparent : ∀ {id parent}, id < read.size → t.lexicalParent? id = some parent →
      read.lexicalParent? id = some parent ∧ parent < read.size := by
    intro id parent hid hlink
    rw [lexicalParent?_eq_label, hsame id hid, ← lexicalParent?_eq_label] at hlink
    exact ⟨hlink, (haligned id parent hlink).1⟩
  have hkindIn : ∀ {group id}, id < read.size → t.kindIn group id = read.kindIn group id := by
    intro group id hid
    rw [kindIn, kind?_eq_label, hsame id hid, ← kind?_eq_label]
    rfl
  induction hlocal with
  | inside hlink hbody =>
    obtain ⟨hlink, hlt⟩ := hparent hv hlink
    exact .inside hlink (hkindIn hlt ▸ hbody)
  | deeper hlink hscope _ ih =>
    obtain ⟨hlink, hlt⟩ := hparent hv hlink
    exact .deeper hlink (hkindIn hlt ▸ hscope) (ih hlt)

theorem semanticParent?_treeOf (h : ∀ e ∈ unitInventory ctx attrs inner, e.attrs.parentContext = none)
    {owner v : NodeId} (hkind : (treeOf ctx messages (.mk attrs inner)).kind? v = some .varDecl)
    (hlocal : LocalTo (treeOf ctx messages (.mk attrs inner)) owner v) :
    (treeOf ctx messages (.mk attrs inner)).semanticParent? v = some owner := by
  obtain ⟨e, he, -, rfl⟩ := (holds_treeOf ctx messages attrs inner).exists_entry v _ hkind (by decide)
  have hv := lt_size_of_kind? (Entry.kind?_of_mem he)
  have hread := (aligned_buildRoot ctx (.mk attrs inner)).semanticParent?_of_localTo (hlocal.of_treeOf h hv)
  rw [semanticParent?_eq_label, label?_treeOf messages h hv, ← semanticParent?_eq_label, hread]

end Unit

/-- In the tree of a unit without scopes named by id, the variables of bodies are confined to them, those of
conversion functions aside. -/
theorem importTree?_localsConfined (ctx : Context) (messages : Messages) (members : List (String × Json))
    (hunit : Json.lookup "kind" members = some (.str unitClass))
    (hcontext : ∀ e ∈ unitInventory ctx (.ofJson (.obj members)) (innerOf members), e.attrs.parentContext = none) :
    ∃ t, importTree? ctx messages (.obj members) = some t ∧ LocalsConfined t :=
  ⟨_, (importTree?_obj ctx messages hunit).2,
    localsConfined_of_scope (sound_treeOf ctx messages _).wellFormed fun _ _ => semanticParent?_treeOf hcontext⟩

/-- A conversion function and a function, each with a variable in a statement of its body that it returns. -/
def convertingUnit : List (String × Json) :=
  let hits := fun (id : String) (line : Int) (declaration name : Int) => Json.obj [
    ("kind", .str "CompoundStmt"), ("inner", .arr [
      .obj [("kind", .str "DeclStmt"), ("inner", .arr [
        .obj [("kind", .str "VarDecl"), ("id", .str id), ("name", .str "hits"),
          ("loc", .obj [("line", .num (.int line)), ("col", .num (.int declaration))])]])],
      .obj [("kind", .str "ReturnStmt"), ("inner", .arr [
        .obj [("kind", .str "DeclRefExpr"),
          ("range", .obj [("begin", .obj [("col", .num (.int name))]), ("end", .obj [("col", .num (.int name))])]),
          ("referencedDecl", .obj [("id", .str id), ("name", .str "hits")])]])]])]
  [("kind", .str "TranslationUnitDecl"), ("inner", .arr [
    .obj [("kind", .str "CXXRecordDecl"), ("name", .str "S"),
      ("loc", .obj [("file", .str "main.cpp"), ("line", .num (.int 1)), ("col", .num (.int 8))]), ("inner", .arr [
        .obj [("kind", .str "CXXConversionDecl"), ("name", .str "operator bool"),
          ("loc", .obj [("line", .num (.int 2)), ("col", .num (.int 3))]),
          ("inner", .arr [hits "1" 2 31 48])]])],
    .obj [("kind", .str "FunctionDecl"), ("name", .str "f"),
      ("loc", .obj [("line", .num (.int 4)), ("col", .num (.int 5))]),
      ("inner", .arr [hits "2" 4 15 32])]])]

theorem importTree?_localsConfined_convertingUnit :
    Json.lookup "kind" convertingUnit = some (.str unitClass) ∧
      (∀ e ∈ unitInventory { mainFile := "main.cpp" } (.ofJson (.obj convertingUnit)) (innerOf convertingUnit),
        e.attrs.parentContext = none) ∧
      ∃ t, importTree? { mainFile := "main.cpp" } {} (.obj convertingUnit) = some t ∧ LocalsConfined t := by
  have hcontext : ∀ e ∈ unitInventory { mainFile := "main.cpp" } (.ofJson (.obj convertingUnit))
      (innerOf convertingUnit),
      e.attrs.parentContext = none := by decide +kernel
  exact ⟨rfl, hcontext, importTree?_localsConfined { mainFile := "main.cpp" } {} convertingUnit rfl hcontext⟩

/-- The variable of the conversion function is reported, and so is its use. -/
theorem reported_convertingUnit :
    ∃ t v owner, importTree? { mainFile := "main.cpp" } {} (.obj convertingUnit) = some t ∧
      (∀ e ∈ unitInventory { mainFile := "main.cpp" } (.ofJson (.obj convertingUnit)) (innerOf convertingUnit),
        e.attrs.parentContext = none) ∧
      t.kind? v = some .varDecl ∧ LocalTo t owner v ∧ t.kind? owner = some .conversionFunction ∧
      t.qualifiedName v = "S::operator bool::hits" ∧
      ⟨"hits", "S::operator bool::hits", .varDecl, 2, 31, 0⟩ ∈ (t.extract "main.cpp" {}).symbols ∧
      ⟨"S::operator bool::hits", 2, 48, .read⟩ ∈ (t.extract "main.cpp" {}).references := by
  have hread : ∀ t,
      t = treeOf { mainFile := "main.cpp" } {} (.mk (.ofJson (.obj convertingUnit)) (innerOf convertingUnit)) →
      [5, 4, 3].map t.lexicalParent? = [some 4, some 3, some 2] ∧
      [5, 4, 3, 2].map t.kind? =
        [some .varDecl, some .declStmt, some .compoundStmt, some .conversionFunction] ∧
      t.qualifiedName 5 = "S::operator bool::hits" ∧
      ⟨"hits", "S::operator bool::hits", .varDecl, 2, 31, 0⟩ ∈ (t.extract "main.cpp" {}).symbols ∧
      ⟨"S::operator bool::hits", 2, 48, .read⟩ ∈ (t.extract "main.cpp" {}).references := by
    rintro _ rfl
    decide +kernel
  obtain ⟨hparents, hkinds, hname, hsymbol, hreference⟩ := hread _ rfl
  simp only [List.map_cons, List.map_nil, List.cons.injEq, and_true] at hparents hkinds
  obtain ⟨hstatement, hbody, hfunction⟩ := hparents
  obtain ⟨hvariable, hdeclares, hbraces, howner⟩ := hkinds
  refine ⟨_, 5, 2, (importTree?_obj _ _ rfl).2, by decide +kernel, hvariable, ?_, howner, hname, hsymbol,
    hreference⟩
  -- neither the declaration statement nor the braces open a scope
  refine .deeper hstatement ?_ (.deeper hbody ?_ (.inside hfunction ?_)) <;>
    simp [kindIn, hdeclares, hbraces, howner] <;> rfl

end Dump

end UnitFacts
