import UnitFacts.Kind

/-!
The facts that one run reports about a unit: symbols, uses of symbols, calls and inclusions, with
the words they are written with.
-/

namespace UnitFacts

/-- Category of a reported symbol. Structs and unions share one. -/
inductive SymbolKind where
  | function
  | method
  | constructor
  | destructor
  | functionTemplate
  | classTemplate
  | classDecl
  | structDecl
  | enumDecl
  | enumConstant
  | varDecl
  | fieldDecl
  | typedef
  | typeAlias
  | namespaceDecl
  | unknown
  deriving DecidableEq, Repr

namespace SymbolKind

def name : SymbolKind → String
  | .function => "Function"
  | .method => "CXXMethod"
  | .constructor => "Constructor"
  | .destructor => "Destructor"
  | .functionTemplate => "FunctionTemplate"
  | .classTemplate => "ClassTemplate"
  | .classDecl => "ClassDecl"
  | .structDecl => "StructDecl"
  | .enumDecl => "EnumDecl"
  | .enumConstant => "EnumConstant"
  | .varDecl => "VarDecl"
  | .fieldDecl => "FieldDecl"
  | .typedef => "Typedef"
  | .typeAlias => "TypeAlias"
  | .namespaceDecl => "Namespace"
  | .unknown => "Unknown"

def all : List SymbolKind :=
  [.function, .method, .constructor, .destructor, .functionTemplate, .classTemplate, .classDecl,
   .structDecl, .enumDecl, .enumConstant, .varDecl, .fieldDecl, .typedef, .typeAlias,
   .namespaceDecl, .unknown]

def ofName? (name : String) : Option SymbolKind := all.find? fun kind => kind.name = name

end SymbolKind

/-- Category under which nodes of a kind are reported. -/
def NodeKind.symbolKind : NodeKind → SymbolKind
  | .functionDecl => .function
  | .cxxMethod => .method
  | .constructor => .constructor
  | .destructor => .destructor
  | .functionTemplate => .functionTemplate
  | .classTemplate => .classTemplate
  | .classDecl => .classDecl
  | .structDecl | .unionDecl => .structDecl
  | .enumDecl => .enumDecl
  | .enumConstantDecl => .enumConstant
  | .varDecl => .varDecl
  | .fieldDecl => .fieldDecl
  | .typedefDecl => .typedef
  | .typeAliasDecl => .typeAlias
  | .namespaceDecl => .namespaceDecl
  | _ => .unknown

/-- How a use touches the symbol it names. The constructors stand in the order of their words. -/
inductive Usage where
  | addr
  | call
  | read
  | typeRef
  | write
  deriving DecidableEq, Repr, Ord

namespace Usage

def name : Usage → String
  | .addr => "addr"
  | .call => "call"
  | .read => "read"
  | .typeRef => "type_ref"
  | .write => "write"

def all : List Usage := [.addr, .call, .read, .typeRef, .write]

def ofName? (name : String) : Option Usage := all.find? fun usage => usage.name = name

end Usage

/-- Which families of facts a run collects. Inclusions are always collected. -/
inductive Action where
  | everything
  | symbols
  | uses
  deriving DecidableEq, Repr

namespace Action

def name : Action → String
  | .everything => "extract-all"
  | .symbols => "extract-symbols"
  | .uses => "extract-refs"

def all : List Action := [.everything, .symbols, .uses]

def ofName? (name : String) : Option Action := all.find? fun action => action.name = name

/-- The complaint about a word that names no action. -/
def unknownMessage (word : String) : String :=
  "unknown action '" ++ word ++ "' (expected extract-all, extract-symbols or extract-refs)"

def collectsSymbols : Action → Bool
  | .everything | .symbols => true
  | .uses => false

def collectsUses : Action → Bool
  | .everything | .uses => true
  | .symbols => false

end Action

structure SymbolFact where
  name : String
  qualifiedName : String
  kind : SymbolKind
  line : UInt32
  col : UInt32
  endLine : UInt32
  deriving DecidableEq, Repr

structure ReferenceFact where
  symbol : String
  line : UInt32
  col : UInt32
  usage : Usage
  deriving DecidableEq, Repr

structure CallEdge where
  caller : String
  callee : String
  line : UInt32
  deriving DecidableEq, Repr

structure IncludeDep where
  path : String
  depth : UInt32
  deriving DecidableEq, Repr

/-- Everything one run learned about one unit. A run that got no tree has no facts and one
diagnostic. -/
structure Extraction where
  file : String
  symbols : List SymbolFact := []
  references : List ReferenceFact := []
  callEdges : List CallEdge := []
  includeDeps : List IncludeDep := []
  success : Bool
  diagnostics : List String := []
  deriving DecidableEq, Repr

namespace Extraction

def failed (file message : String) : Extraction :=
  { file, success := false, diagnostics := [message] }

def factCount (result : Extraction) : Nat :=
  result.symbols.length + result.references.length + result.callEdges.length +
    result.includeDeps.length

end Extraction

end UnitFacts
