import UnitFacts.Json.Printer
import UnitFacts.Json.Reader
import UnitFacts.Json.Record
import UnitFacts.Tree.Check

/-!
Snapshots: a tree as a JSON document. Writing leaves out empty spellings, empty lists and absent
links; reading puts them back, and refuses what `Tree.check` refuses.
-/

namespace UnitFacts

namespace Snapshot

/-- A member that is written only when there is something to write. -/
def optionalMember {α : Type} (name : String) (encode : α → Json) : Option α → List (String × Json)
  | some value => [(name, encode value)]
  | none => []

def listMember {α : Type} (name : String) (encode : α → Json) : List α → List (String × Json)
  | [] => []
  | items => [(name, .arr (items.map encode))]

def ofFile (file : SourceFile) : Json :=
  .obj [("path", .str file.path), ("is_main", .bool file.isMain), ("is_system", .bool file.isSystem)]

def ofPosition (position : Position) : Json :=
  .obj [("file", .ofNat position.file), ("line", .ofWord position.line), ("col", .ofWord position.col)]

def ofNode (n : Node) : Json :=
  .obj <|
    [("kind", .str n.kind.name)] ++
    (if n.spelling = "" then [] else [("spelling", .str n.spelling)]) ++
    optionalMember "position" ofPosition n.position ++
    [("extent_end_line", .ofWord n.endLine)] ++
    optionalMember "lexical_parent" .ofNat n.lexicalParent ++
    optionalMember "semantic_parent" .ofNat n.semanticParent ++
    listMember "children" .ofNat n.children ++
    optionalMember "referenced" .ofNat n.referenced ++
    optionalMember "canonical" .ofNat n.canonical ++
    optionalMember "definition" .ofNat n.definition ++
    [("is_definition", .bool n.isDefinition)] ++
    listMember "tokens" .str n.tokens

def ofInclusion (inclusion : Inclusion) : Json :=
  .obj [("path", .str inclusion.path), ("depth", .ofWord inclusion.depth)]

def ofDiagnostic (diagnostic : Diagnostic) : Json :=
  .obj [("severity", .str diagnostic.severity.name), ("message", .str diagnostic.message)]

def ofTree (t : Tree) : Json :=
  .obj [("files", .arr (t.files.map ofFile)), ("root", .ofNat t.root),
    ("nodes", .arr (t.nodes.toList.map ofNode)), ("inclusions", .arr (t.inclusions.map ofInclusion)),
    ("diagnostics", .arr (t.diagnostics.map ofDiagnostic))]

def file? (value : Json.Written) : Option SourceFile := do
  match ← Json.fields? ["path", "is_main", "is_system"] value with
  | [path, isMain, isSystem] =>
    return {
      path := ← Json.required Json.Written.text? path
      isMain := ← Json.defaulted false Json.Written.bool? isMain
      isSystem := ← Json.defaulted false Json.Written.bool? isSystem }
  | _ => none

def position? (value : Json.Written) : Option Position := do
  match ← Json.fields? ["file", "line", "col"] value with
  | [file, line, col] =>
    return {
      file := ← Json.required Json.nat32? file
      line := ← Json.required Json.word32? line
      col := ← Json.required Json.word32? col }
  | _ => none

def nodeFields : List String :=
  ["kind", "spelling", "position", "extent_end_line", "lexical_parent", "semantic_parent",
   "children", "referenced", "canonical", "definition", "is_definition", "tokens"]

def link? (field : Option Json.Written) : Option (Option NodeId) :=
  Json.defaulted none (Json.nullable Json.nat32?) field

def node? (value : Json.Written) : Option Node := do
  match ← Json.fields? nodeFields value with
  | [kind, spelling, position, endLine, lexicalParent, semanticParent, children, referenced,
     canonical, definition, isDefinition, tokens] =>
    return {
      kind := ← Json.required (Json.choice? NodeKind.ofName?) kind
      spelling := ← Json.defaulted "" Json.Written.text? spelling
      position := ← Json.defaulted none (Json.nullable position?) position
      endLine := ← Json.defaulted 0 Json.word32? endLine
      lexicalParent := ← link? lexicalParent
      semanticParent := ← link? semanticParent
      children := ← Json.defaulted [] (Json.listOf? Json.nat32?) children
      referenced := ← link? referenced
      canonical := ← link? canonical
      definition := ← link? definition
      isDefinition := ← Json.defaulted false Json.Written.bool? isDefinition
      tokens := ← Json.defaulted [] (Json.listOf? Json.Written.text?) tokens }
  | _ => none

def inclusion? (value : Json.Written) : Option Inclusion := do
  match ← Json.fields? ["path", "depth"] value with
  | [path, depth] =>
    return { path := ← Json.required Json.Written.text? path, depth := ← Json.required Json.word32? depth }
  | _ => none

def diagnostic? (value : Json.Written) : Option Diagnostic := do
  match ← Json.fields? ["severity", "message"] value with
  | [severity, message] =>
    return {
      severity := ← Json.required (Json.choice? Severity.ofName?) severity
      message := ← Json.required Json.Written.text? message }
  | _ => none

def tree? (value : Json.Written) : Option Tree := do
  match ← Json.fields? ["files", "root", "nodes", "inclusions", "diagnostics"] value with
  | [files, root, nodes, inclusions, diagnostics] =>
    return {
      files := ← Json.required (Json.listOf? file?) files
      root := ← Json.required Json.nat32? root
      nodes := (← Json.required (Json.listOf? node?) nodes).toArray
      inclusions := ← Json.defaulted [] (Json.listOf? inclusion?) inclusions
      diagnostics := ← Json.defaulted [] (Json.listOf? diagnostic?) diagnostics }
  | _ => none

/-- Why a text is no snapshot. -/
inductive ReadError where
  | notATree
  | faulty (fault : Fault)
  deriving DecidableEq, Repr

def read (text : String) : Except ReadError Tree :=
  match (Json.Written.parse? text).bind tree? with
  | none => .error .notATree
  | some t =>
    match t.check with
    | .ok () => .ok t
    | .error fault => .error (.faulty fault)

def write (pretty : Bool) (t : Tree) : String := (ofTree t).render (.ofPretty pretty)

end Snapshot

end UnitFacts
