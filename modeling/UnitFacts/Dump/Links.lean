import UnitFacts.Dump.Redeclarations
import UnitFacts.Tree.Scope

/-!
The links of a tree that was read, in five passes over what the draft noted: scopes named by id,
redeclarations, references, constructors, and type references.

* A scope named by id is taken over unless the node would become its own ancestor.
* A construction refers to the first constructor of the record with the same written type.
* A name in a written type refers to the type declaration of that qualified name, or else to the only
  one whose qualified name ends in it; each of its tokens becomes a type reference.
-/

namespace UnitFacts.Dump

/-- Sets one semantic parent named by id. -/
def linkScope (d : Draft) (t : Tree) (link : NodeId × String) : Tree :=
  match d.lookup? link.2 with
  | some scope => if link.1 ∈ t.scopeChain scope then t else t.setSemanticParent link.1 (some scope)
  | none => t

def linkScopes (d : Draft) (t : Tree) : Tree := d.contexts.reverse.foldl (linkScope d) t

def linkReference (d : Draft) (t : Tree) (link : NodeId × String) : Tree :=
  match d.lookup? link.2 with
  | some target => t.setReferenced link.1 target
  | none => t

def linkReferences (d : Draft) (t : Tree) : Tree := d.references.reverse.foldl (linkReference d) t

/-- The first constructor of a record with a written type. -/
def constructor? (d : Draft) (t : Tree) (record ctorType : String) : Option NodeId :=
  (d.ctorTypes.reverse.find? fun (ctor, type) =>
    type = ctorType && (t.semanticParent? ctor).any fun scope => t.qualifiedName scope = record).map (·.1)

/-- Links one construction; `names` is the tree whose qualified names count. -/
def linkConstruct (d : Draft) (names : Tree) (t : Tree) (construct : Construct) : Tree :=
  match construct.records.findSome? fun record => constructor? d names record construct.ctorType with
  | some ctor => t.setReferenced construct.node ctor
  | none => t

def linkConstructs (d : Draft) (t : Tree) : Tree := d.constructs.reverse.foldl (linkConstruct d t) t

def isTypeDeclaration (kind : NodeKind) : Bool :=
  kind.isAggregate || kind = .classTemplate || kind = .typedefDecl || kind = .typeAliasDecl

/-- The attached type declarations by qualified name, the first of each name. -/
def typeTable (t : Tree) : List (String × NodeId) :=
  firstByKey (·.1) [] <|
    ((List.range t.size).filter fun id =>
      t.kindIn isTypeDeclaration id && (t.lexicalParent? id).isSome).map fun id => (t.qualifiedName id, id)

def resolveType? (types : List (String × NodeId)) (name : String) : Option NodeId :=
  match types.lookup name with
  | some id => some id
  | none =>
    match types.filter fun (qualified, _) => Text.endsWith ("::" ++ name) qualified with
    | [(_, id)] => some id
    | _ => none

/-- A type reference to be placed on a token. -/
structure TypeUse where
  owner : NodeId
  target : NodeId
  file : String
  token : Token
  deriving DecidableEq, Repr

/-- The uses of a mention, name by name in the order of the type and then by place. -/
def mentionUses (ctx : Context) (types : List (String × NodeId)) (m : Mention) : List TypeUse :=
  let spans := ctx.sources.spans m.file m.start m.stop
  m.names.flatMap fun name =>
    match resolveType? types name with
    | some target =>
      (spans.filter fun token => token.text = shortName name).map fun token => ⟨m.owner, target, m.file, token⟩
    | none => []

/-- All type references; one owner has at most one on a token. -/
def typeUses (ctx : Context) (d : Draft) (t : Tree) : List TypeUse :=
  firstByKey (fun use => (use.owner, use.token.offset)) []
    (d.mentions.reverse.flatMap (mentionUses ctx (typeTable t)))

def addTypeUse (ctx : Context) (t : Tree) (use : TypeUse) : Tree :=
  let (id, t) := t.attach use.owner .typeRef (t.spelling use.target)
  (placeAt ctx t id use.file (UInt32.ofNat use.token.line) (UInt32.ofNat use.token.col)).setReferenced
    id use.target

def addTypeUses (ctx : Context) (d : Draft) (t : Tree) : Tree :=
  (typeUses ctx d t).foldl (addTypeUse ctx) t

/-- The tree of a draft with all its links. -/
def Draft.linked (ctx : Context) (d : Draft) : Tree :=
  addTypeUses ctx d (linkConstructs d (linkReferences d (linkRedeclarations ctx.order d (linkScopes d d.tree))))

end UnitFacts.Dump
