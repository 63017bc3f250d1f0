import UnitFacts.Compiler.SystemHeaders
import UnitFacts.Dump.Plan
import UnitFacts.Dump.TableOrder
import UnitFacts.Dump.TypeText
import UnitFacts.Source.Sources
import UnitFacts.Tree.Edit

/-!
The state of reading a dump: the tree so far, the location cursor, the ids met, and the links whose
targets may come later in the document. Lists that grow keep the newest entry first.
-/

namespace UnitFacts.Dump

/-- What a dump is read with. -/
structure Context where
  mainFile : String
  headers : SystemHeaders := ⟨[]⟩
  sources : Sources := {}
  order : TableOrder := .ofDocument

namespace Context

def isMainFile (ctx : Context) (path : String) : Bool := Path.normalise path = Path.normalise ctx.mainFile

def isSystemFile (ctx : Context) (path : String) : Bool :=
  !ctx.isMainFile path && ctx.headers.isSystem path

end Context

/-- The stretch of source in which a declaration writes its type, with the names in that type. -/
structure Mention where
  owner : NodeId
  file : String
  start : Nat
  stop : Nat
  names : List String
  deriving DecidableEq, Repr

/-- An expression that constructs a record, with the names the record may have, best first. -/
structure Construct where
  node : NodeId
  records : List String
  ctorType : String
  deriving DecidableEq, Repr

structure Draft where
  tree : Tree
  cursor : LocCursor := {}
  ids : List (String × NodeId) := []
  references : List (NodeId × String) := []
  previous : List (NodeId × String) := []
  contexts : List (NodeId × String) := []
  ctorTypes : List (NodeId × String) := []
  constructs : List Construct := []
  mentions : List Mention := []

/-- Where new nodes go: below `parent`, or loose, and in either case in the scope `scope`. -/
structure Frame where
  parent : NodeId
  scope : NodeId
  detached : Bool
  deriving DecidableEq, Repr

/-- The index of a file in the table of a tree that has it. The main file is entry 0, however its
path is written. -/
def fileIndex (ctx : Context) (t : Tree) (path : String) : FileId :=
  if ctx.isMainFile path then 0 else (t.fileId? path).getD 0

/-- The tree with a file in its table. -/
def withFile (ctx : Context) (t : Tree) (path : String) : Tree :=
  if ctx.isMainFile path then t else t.addFile path (ctx.headers.isSystem path)

/-- Puts a node at a place in a file. -/
def placeAt (ctx : Context) (t : Tree) (id : NodeId) (path : String) (line col : UInt32) : Tree :=
  let t := withFile ctx t path
  t.place id (fileIndex ctx t path) line col

namespace Draft

def edit (d : Draft) (change : Tree → Tree) : Draft := { d with tree := change d.tree }

def readLoc (d : Draft) (raw : RawLoc) : Option Loc × Draft :=
  let (loc, cursor) := d.cursor.read raw
  (loc, { d with cursor })

/-- Adds a node for the frame and tells its index. -/
def create (d : Draft) (frame : Frame) (detached : Bool) (kind : NodeKind) (spelling : String) :
    NodeId × Draft :=
  let (id, t) :=
    if detached then d.tree.addLoose (some frame.scope) kind spelling
    else d.tree.attach frame.parent kind spelling
  (id, { d with tree := t.setSemanticParent id (some frame.scope) })

def register (d : Draft) (attrs : Attrs) (id : NodeId) : Draft :=
  match attrs.id with
  | some name => { d with ids := (name, id) :: d.ids }
  | none => d

def lookup? (d : Draft) (name : String) : Option NodeId := d.ids.lookup name

/-- Notes the links of a declaration to an earlier one and to a scope that is not around it. -/
def noteLinks (d : Draft) (attrs : Attrs) (id : NodeId) : Draft :=
  { d with
    previous := (attrs.previousDecl.map fun name => (id, name)).toList ++ d.previous
    contexts := (attrs.parentContext.map fun name => (id, name)).toList ++ d.contexts }

def place (ctx : Context) (d : Draft) (id : NodeId) (at? end? : Option Loc) : Draft :=
  d.edit fun t =>
    let t := match at? with
      | some loc => placeAt ctx t id loc.expansion.file loc.spelling.line loc.spelling.col
      | none => t
    match end? with
    | some loc => t.setEndLine id loc.spelling.line
    | none => t

end Draft

end UnitFacts.Dump
