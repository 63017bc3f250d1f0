import UnitFacts.Proofs.Tree.Scope

/-!
The label of a node: its kind, its spelling, its lexical and its semantic parent, and its tokens. Growing a
tree gives labels to new nodes and leaves those of old nodes alone, as children, positions and links are not
part of them. Qualified names are made of labels only; `Names` says how, without a bound on the chain.
-/

namespace UnitFacts

/-- What a node says about what it was made for. -/
structure Label where
  kind : NodeKind
  spelling : String
  parent : Option NodeId
  scope : Option NodeId
  tokens : List String

def Node.label (n : Node) : Label := ⟨n.kind, n.spelling, n.lexicalParent, n.semanticParent, n.tokens⟩

/-- The label with its semantic parent left out. -/
def Label.unscoped (l : Label) : Label := { l with scope := none }

namespace Tree

def label? (t : Tree) (id : NodeId) : Option Label := (t.node? id).map Node.label

section Parts

variable (t : Tree) (id : NodeId)

theorem kind?_eq_label : t.kind? id = (t.label? id).map (·.kind) := by
  rw [label?, Option.map_map]
  rfl

theorem spelling_eq_label : t.spelling id = ((t.label? id).map (·.spelling)).getD "" := by
  rw [label?, Option.map_map]
  rfl

theorem tokens_eq_label : t.tokens id = ((t.label? id).map (·.tokens)).getD [] := by
  rw [label?, Option.map_map]
  rfl

theorem lexicalParent?_eq_label : t.lexicalParent? id = (t.label? id).bind (·.parent) := by
  rw [label?, Option.bind_map]
  rfl

theorem semanticParent?_eq_label : t.semanticParent? id = (t.label? id).bind (·.scope) := by
  rw [label?, Option.bind_map]
  rfl

theorem lt_size_of_label? {t : Tree} {id : NodeId} {l : Label} (h : t.label? id = some l) : id < t.size := by
  obtain ⟨n, hn, -⟩ := Option.map_eq_some_iff.mp h
  exact lt_size_of_node? hn

theorem kind?_eq_unscoped : t.kind? id = ((t.label? id).map Label.unscoped).map (·.kind) := by
  rw [kind?_eq_label, Option.map_map]
  rfl

theorem lexicalParent?_eq_unscoped : t.lexicalParent? id = ((t.label? id).map Label.unscoped).bind (·.parent) := by
  rw [lexicalParent?_eq_label, Option.bind_map]
  rfl

theorem spelling_eq_unscoped :
    t.spelling id = (((t.label? id).map Label.unscoped).map (·.spelling)).getD "" := by
  rw [spelling_eq_label, Option.map_map]
  rfl

theorem tokens_eq_unscoped : t.tokens id = (((t.label? id).map Label.unscoped).map (·.tokens)).getD [] := by
  rw [tokens_eq_label, Option.map_map]
  rfl

theorem size_eq_of_unscoped_eq {t t' : Tree}
    (h : ∀ id, (t'.label? id).map Label.unscoped = (t.label? id).map Label.unscoped) : t'.size = t.size := by
  have hiff : ∀ id, t'.size ≤ id ↔ t.size ≤ id := by
    intro id
    rw [← node?_eq_none_iff, ← node?_eq_none_iff, ← Option.map_eq_none_iff, ← label?,
      ← Option.map_eq_none_iff, h]
    simp [label?]
  exact Nat.le_antisymm ((hiff t.size).mpr (Nat.le_refl _)) ((hiff t'.size).mp (Nat.le_refl _))

end Parts

section Changes

variable (t : Tree) (id k : NodeId)

theorem label?_modify (change : Node → Node) (h : ∀ n, (change n).label = n.label) :
    (t.modify id change).label? k = t.label? k := t.map_node?_modify id change Node.label h k

@[simp] theorem label?_place (file : FileId) (line col : UInt32) :
    (t.place id file line col).label? k = t.label? k := by
  rw [place, label?_modify]
  intro n
  rfl

@[simp] theorem label?_setEndLine (line : UInt32) : (t.setEndLine id line).label? k = t.label? k := by
  rw [setEndLine, label?_modify]
  intro n
  rfl

@[simp] theorem label?_setReferenced (target : NodeId) : (t.setReferenced id target).label? k = t.label? k := by
  rw [setReferenced, label?_modify]
  intro n
  rfl

@[simp] theorem label?_setCanonical (target : NodeId) : (t.setCanonical id target).label? k = t.label? k := by
  rw [setCanonical, label?_modify]
  intro n
  rfl

@[simp] theorem label?_setDefinition (target : NodeId) : (t.setDefinition id target).label? k = t.label? k := by
  rw [setDefinition, label?_modify]
  intro n
  rfl

@[simp] theorem label?_markDefinition : (t.markDefinition id).label? k = t.label? k := by
  rw [markDefinition, label?_modify]
  intro n
  rfl

@[simp] theorem label?_addFile (path : String) (isSystem : Bool) :
    (t.addFile path isSystem).label? k = t.label? k := by rw [label?, node?_addFile, label?]

theorem label?_setSemanticParent (scope : Option NodeId) :
    (t.setSemanticParent id scope).label? k =
      if id = k then (t.label? k).map ({ · with scope := scope }) else t.label? k := by
  rw [label?, setSemanticParent, node?_modify, label?]
  split
  · rw [Option.map_map, Option.map_map]
    rfl
  · rfl

theorem label?_setTokens (tokens : List String) :
    (t.setTokens id tokens).label? k =
      if id = k then (t.label? k).map ({ · with tokens := tokens }) else t.label? k := by
  rw [label?, setTokens, node?_modify, label?]
  split
  · rw [Option.map_map, Option.map_map]
    rfl
  · rfl

theorem label?_attach {parent : NodeId} (hp : parent < t.size) (kind : NodeKind) (spelling : String) :
    (t.attach parent kind spelling).2.label? k =
      if k = t.size then some ⟨kind, spelling, some parent, t.scopeFor? parent, []⟩ else t.label? k := by
  rw [label?, node?_attach t parent kind spelling hp]
  split
  · rfl
  · split
    · rw [label?, Option.map_map]
      rfl
    · rfl

theorem label?_addLoose (scope : Option NodeId) (kind : NodeKind) (spelling : String) :
    (t.addLoose scope kind spelling).2.label? k =
      if k = t.size then some ⟨kind, spelling, none, scope, []⟩ else t.label? k := by
  rw [addLoose, label?, node?_push]
  split <;> rfl

end Changes

/-! ### Names along a chain of scopes -/

/-- The names with one more, unless that is empty. -/
def addName (names : List String) (name : String) : List String := if name = "" then names else names ++ [name]

/-- How names are written one after the other. -/
def joinNames : List String → String
  | [] => unnamed
  | names => "::".intercalate names

theorem joinNames_append_singleton {names : List String} (hnames : names ≠ []) (name : String) :
    joinNames (names ++ [name]) = joinNames names ++ "::" ++ name := by
  obtain ⟨first, rest, rfl⟩ := List.exists_cons_of_ne_nil hnames
  change "::".intercalate (first :: rest ++ [name]) = "::".intercalate (first :: rest) ++ "::" ++ name
  rw [String.intercalate_append_of_ne_nil hnames (List.cons_ne_nil _ _), String.intercalate_singleton]

/-- The names of a node and of all scopes around it below the unit, outermost first, empty ones left out. -/
inductive Names (t : Tree) : NodeId → List String → Prop
  | unit {id : NodeId} {l : Label} : t.label? id = some l → l.kind = .unit → Names t id []
  | inner {id scope : NodeId} {l : Label} {names : List String} : t.label? id = some l → l.kind ≠ .unit →
      l.scope = some scope → Names t scope names → Names t id (addName names l.spelling)

/-- Names stay as they are where the labels of old nodes do. -/
theorem Names.of_label_eq {t t' : Tree} (h : ∀ id, id < t.size → t'.label? id = t.label? id) {id : NodeId}
    {names : List String} (hnames : t.Names id names) : t'.Names id names := by
  induction hnames with
  | unit hl hunit => exact .unit ((h _ (lt_size_of_label? hl)).trans hl) hunit
  | inner hl hkind hscope _ ih => exact .inner ((h _ (lt_size_of_label? hl)).trans hl) hkind hscope ih

theorem qualifiedName_eq_joinNames (t : Tree) (id : NodeId) :
    t.qualifiedName id = joinNames (t.nameSegments id).reverse := by
  unfold qualifiedName
  cases t.nameSegments id with
  | nil => rfl
  | cons first rest =>
    simp only
    cases hreverse : (first :: rest).reverse with
    | nil => simp at hreverse
    | cons last others => rfl

theorem isUnit_of_label? {t : Tree} {id : NodeId} {l : Label} (h : t.label? id = some l) :
    t.isUnit id = decide (l.kind = .unit) := by
  rw [isUnit, kindIn, kind?_eq_label, h]
  rfl

namespace Scoped

variable {t : Tree} (ht : t.Scoped)
include ht

theorem scopeChain_eq_cons {id : NodeId} (hid : id < t.size) :
    t.scopeChain id = id :: match t.semanticParent? id with
      | some scope => t.scopeChain scope
      | none => [] := by
  rw [← ht.ancestry_eq_scopeChain (Nat.le_succ _) hid, ancestry_succ]
  cases t.semanticParent? id with
  | none => simp
  | some scope => rfl

/-- The parts of a name, one node of the chain after the other. -/
theorem nameSegments_eq {id : NodeId} (hid : id < t.size) : t.nameSegments id =
    if t.isUnit id then []
    else (if t.spelling id = "" then [] else [t.spelling id]) ++ (t.semanticParent? id).elim [] t.nameSegments := by
  rw [nameSegments, innerScopes, ht.scopeChain_eq_cons hid, List.takeWhile_cons]
  cases t.isUnit id with
  | true => simp
  | false =>
    by_cases hname : t.spelling id = "" <;> cases t.semanticParent? id <;> simp [hname, nameSegments, innerScopes]

theorem nameSegments_of_names {id : NodeId} {names : List String} (h : t.Names id names) :
    t.nameSegments id = names.reverse := by
  induction h with
  | @unit id l hl hunit => simp [ht.nameSegments_eq (lt_size_of_label? hl), isUnit_of_label? hl, hunit]
  | @inner id scope l names hl hkind hscope _ ih =>
    have hparent : t.semanticParent? id = some scope := by rw [semanticParent?_eq_label, hl, Option.bind_some, hscope]
    have hspelling : t.spelling id = l.spelling := by rw [spelling_eq_label, hl]; rfl
    rw [ht.nameSegments_eq (lt_size_of_label? hl), isUnit_of_label? hl, hparent, hspelling, addName]
    by_cases hempty : l.spelling = "" <;> simp [hkind, hempty, ih]

/-- The qualified name joins the names along the chain of scopes. -/
theorem qualifiedName_of_names {id : NodeId} {names : List String} (h : t.Names id names) :
    t.qualifiedName id = joinNames names := by
  rw [qualifiedName_eq_joinNames, ht.nameSegments_of_names h, List.reverse_reverse]

section Extended

variable {t' : Tree} (hlabel : ∀ id, id < t.size → t'.label? id = t.label? id)
include hlabel

theorem ancestry_eq_of_label_eq (fuel : Nat) {id : NodeId} (hid : id < t.size) :
    t'.ancestry fuel (some id) = t.ancestry fuel (some id) := by
  induction fuel generalizing id with
  | zero => simp
  | succ fuel ih =>
    have hparent : t'.semanticParent? id = t.semanticParent? id := by
      rw [semanticParent?_eq_label, hlabel id hid, ← semanticParent?_eq_label]
    rw [ancestry_succ, ancestry_succ, hparent]
    cases hscope : t.semanticParent? id with
    | none => simp
    | some scope => rw [ih (ht.lt scope id hscope)]

/-- Qualified names stay as they are when nodes are added behind those that a tree has. -/
theorem qualifiedName_eq_of_label_eq {id : NodeId} (hid : id < t.size) : t'.qualifiedName id = t.qualifiedName id := by
  have hsize : t.size ≤ t'.size := by
    by_contra hlt
    obtain ⟨n, hn⟩ := exists_node? (Nat.lt_of_not_le hlt)
    have hlast := hlabel t'.size (Nat.lt_of_not_le hlt)
    rw [label?, label?, (t'.node?_eq_none_iff _).mpr (Nat.le_refl _), hn] at hlast
    cases hlast
  have hchain : t'.scopeChain id = t.scopeChain id := by
    rw [scopeChain, ht.ancestry_eq_of_label_eq hlabel _ hid, ht.ancestry_eq_scopeChain hsize hid]
  have hlt : ∀ k ∈ t.scopeChain id, t'.label? k = t.label? k := by
    intro k hk
    exact hlabel k (ht.lt_size_of_isAround (t.isAround_of_mem_ancestry _ id k hk) hid)
  have hinner : t'.innerScopes id = t.innerScopes id := by
    rw [innerScopes, hchain, innerScopes]
    generalize t.scopeChain id = chain at hlt
    induction chain with
    | nil => rfl
    | cons k rest ih =>
      obtain ⟨hk, hrest⟩ := List.forall_mem_cons.mp hlt
      rw [List.takeWhile_cons, List.takeWhile_cons, ih hrest, isUnit, kindIn, kind?_eq_label, hk, ← kind?_eq_label]
      rfl
  have hspelling : (t.innerScopes id).map t'.spelling = (t.innerScopes id).map t.spelling := by
    refine List.map_congr_left fun k hk => ?_
    rw [spelling_eq_label, hlt k (List.takeWhile_subset _ hk), ← spelling_eq_label]
  rw [qualifiedName, nameSegments, hinner, hspelling]
  rfl

end Extended

end Scoped

end Tree

end UnitFacts
