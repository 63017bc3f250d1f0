import UnitFacts.Dump.Spelled

/-!
Reading a dump into a tree, in document order: the location of a node, the begin and the end of its
range, then the nodes inside. Subtrees that are not kept are still read for their locations.

A declaration that the compiler made up, or the class of a lambda, becomes a loose node with its
members; statements inside loose nodes and statements of system headers are passed over. The first
pattern inside a merging template is the template, and what follows the pattern is loose.
-/

namespace UnitFacts.Dump

namespace LocCursor

/-- The cursor after the locations of one node. A statement has no location besides its range. -/
def afterAttrs (cursor : LocCursor) (attrs : Attrs) : LocCursor :=
  let cursor := (cursor.read attrs.loc).2
  let cursor := (cursor.read attrs.rangeBegin).2
  (cursor.read attrs.rangeEnd).2

end LocCursor

mutual

/-- The cursor after a subtree that is read for its locations only. -/
def skim : Node → LocCursor → LocCursor
  | .mk attrs inner, cursor => skimAll inner (cursor.afterAttrs attrs)

def skimAll : List Node → LocCursor → LocCursor
  | [], cursor => cursor
  | node :: rest, cursor => skimAll rest (skim node cursor)

end

/-- What a declaration or expression of a class links to by id. -/
def linkTarget? (attrs : Attrs) : Option String :=
  match attrs.cls with
  | "DeclRefExpr" => attrs.referencedId
  | "MemberExpr" => attrs.memberId
  | "UnresolvedLookupExpr" | "UnresolvedMemberExpr" => attrs.lookupId
  | _ => none

/-- The construction that an expression of a class performs. -/
def construct? (attrs : Attrs) (id : NodeId) : Option Construct :=
  match attrs.cls with
  | "CXXConstructExpr" | "CXXTemporaryObjectExpr" =>
    attrs.ctorType.map fun ctorType =>
      ⟨id, ((attrs.desugaredType.toList ++ attrs.qualType.toList).map recordName).filter
        fun name => name ≠ "", ctorType⟩
  | _ => none

/-- The spelling of an expression. -/
def statementSpelling (kind : NodeKind) (attrs : Attrs) : String :=
  match kind with
  | .declRefExpr => attrs.referencedName
  | .memberRefExpr => attrs.name
  | _ => ""

/-- The position of an expression or statement: a member access stands at its member, a reference at
its name, all else at its begin. -/
def statementPosition (ctx : Context) (kind : NodeKind) (attrs : Attrs) (first? last? : Option Loc) :
    Option Loc :=
  match kind with
  | .memberRefExpr => last?
  | .declRefExpr => namePosition ctx (statementSpelling kind attrs) first? last?
  | _ => first?

def isOperator : NodeKind → Bool
  | .binaryOperator | .compoundAssignOperator | .unaryOperator => true
  | _ => false

namespace Draft

/-- The node of a declaration, and the draft after it, its contents aside. -/
def declare (ctx : Context) (d : Draft) (frame : Frame) (detached : Bool) (kind : NodeKind)
    (attrs : Attrs) (inner : List Node) (loc? first? last? : Option Loc) : NodeId × Draft :=
  let (id, d) := d.create frame detached kind attrs.name
  let d := ((d.register attrs id).place ctx id loc? last?).noteLinks attrs id
  let d :=
    if isDefining kind attrs inner || (kind = .enumDecl && closesBody ctx last?) then
      d.edit (·.markDefinition id)
    else d
  let mention := if detached then none else mention? ctx attrs kind id first? loc? last?
  let ctorType := if kind = .constructor then attrs.qualType else none
  (id, { d with
    mentions := mention.toList ++ d.mentions
    ctorTypes := (ctorType.map fun type => (id, type)).toList ++ d.ctorTypes })

/-- The node of a template, and the draft after it, its contents aside. -/
def declareTemplate (ctx : Context) (d : Draft) (frame : Frame) (detached : Bool) (kind : NodeKind)
    (attrs : Attrs) (loc? last? : Option Loc) : NodeId × Draft :=
  let (id, d) := d.create frame detached kind attrs.name
  (id, ((d.register attrs id).place ctx id loc? last?).noteLinks attrs id)

/-- The draft after a pattern has been taken into its template, its contents aside. -/
def mergePattern (d : Draft) (template : NodeId) (kind : NodeKind) (attrs : Attrs) (inner : List Node) :
    Draft :=
  let (_, d) := d.readLoc attrs.loc
  let (_, d) := d.readLoc attrs.rangeBegin
  let (last?, d) := d.readLoc attrs.rangeEnd
  let d := d.register attrs template
  let d := match last? with
    | some last => d.edit (·.setEndLine template last.spelling.line)
    | none => d
  let d := d.noteLinks attrs template
  if isDefining kind attrs inner then d.edit (·.markDefinition template) else d

/-- The node of an expression or statement, and the draft after it, its contents aside. -/
def state (ctx : Context) (d : Draft) (frame : Frame) (kind : NodeKind) (attrs : Attrs)
    (first? last? : Option Loc) : NodeId × Draft :=
  let (id, d) := d.create frame false kind (statementSpelling kind attrs)
  let d := (d.register attrs id).place ctx id (statementPosition ctx kind attrs first? last?) last?
  let d :=
    { d with
      references := ((linkTarget? attrs).map fun target => (id, target)).toList ++ d.references
      constructs := (construct? attrs id).toList ++ d.constructs }
  (id, if isOperator kind then d.edit (·.setTokens id (operatorTokens ctx attrs first? last?)) else d)

end Draft

mutual

def build (ctx : Context) (frame : Frame) : Node → Draft → Draft
  | .mk attrs inner, d =>
    match attrs.plan with
    | .skim => { d with cursor := skimAll inner (d.cursor.afterAttrs attrs) }
    | .dissolve => buildAll ctx frame inner { d with cursor := d.cursor.afterAttrs attrs }
    | .template kind merges =>
      if attrs.isMention then d
      else
        let (loc?, d) := d.readLoc attrs.loc
        let (_, d) := d.readLoc attrs.rangeBegin
        let (last?, d) := d.readLoc attrs.rangeEnd
        let detached := frame.detached || attrs.isImplicit
        let (id, d) := d.declareTemplate ctx frame detached kind attrs loc? last?
        let own : Frame := ⟨id, if merges then id else frame.scope, detached⟩
        buildTemplate ctx kind merges id own { frame with detached := true } false inner d
    | .declaration kind =>
      if attrs.isMention then d
      else
        let (loc?, d) := d.readLoc attrs.loc
        let (first?, d) := d.readLoc attrs.rangeBegin
        let (last?, d) := d.readLoc attrs.rangeEnd
        let isLambdaClass := attrs.cls = "CXXRecordDecl" && d.tree.kind? frame.parent = some .lambdaExpr
        let detached := frame.detached || attrs.isImplicit || isLambdaClass
        let (id, d) := d.declare ctx frame detached kind attrs inner loc? first? last?
        buildAll ctx ⟨id, if opensScope kind then id else frame.scope, detached⟩ inner d
    | .statement kind =>
      let (first?, d) := d.readLoc attrs.rangeBegin
      let (last?, d) := d.readLoc attrs.rangeEnd
      if frame.detached || first?.any fun first => ctx.isSystemFile first.expansion.file then
        { d with cursor := skimAll inner d.cursor }
      else
        let (id, d) := d.state ctx frame kind attrs first? last?
        buildAll ctx ⟨id, if kind = .lambdaExpr then id else frame.scope, false⟩ inner d

def buildAll (ctx : Context) (frame : Frame) : List Node → Draft → Draft
  | [], d => d
  | node :: rest, d => buildAll ctx frame rest (build ctx frame node d)

/-- Reads the inner nodes of a template: up to the pattern in the frame `own`, after it in the frame
`beside`. -/
def buildTemplate (ctx : Context) (kind : NodeKind) (merges : Bool) (id : NodeId) (own beside : Frame) :
    Bool → List Node → Draft → Draft
  | _, [], d => d
  | true, node :: rest, d =>
    buildTemplate ctx kind merges id own beside true rest (build ctx beside node d)
  | false, .mk attrs inner :: rest, d =>
    if isPattern kind attrs.cls then
      let d :=
        if !merges then build ctx own (.mk attrs inner) d
        else if attrs.isMention then d
        else buildAll ctx own inner (d.mergePattern id kind attrs inner)
      buildTemplate ctx kind merges id own beside true rest d
    else
      buildTemplate ctx kind merges id own beside false rest (build ctx own (.mk attrs inner) d)

end

/-- The draft after the whole document, links not yet resolved. -/
def buildRoot (ctx : Context) : Node → Draft
  | .mk attrs inner =>
    let d : Draft := { tree := Tree.start ctx.mainFile, cursor := LocCursor.afterAttrs {} attrs }
    let d := d.register attrs d.tree.root
    buildAll ctx ⟨d.tree.root, d.tree.root, false⟩ inner d

end UnitFacts.Dump
