import UnitFacts.Facts.Basic
import UnitFacts.Json.Basic

/-!
What a run learned, as a JSON value.
-/

namespace UnitFacts

def SymbolFact.toJson (fact : SymbolFact) : Json :=
  .obj [("name", .str fact.name), ("qualified_name", .str fact.qualifiedName),
    ("kind", .str fact.kind.name), ("line", .ofWord fact.line), ("col", .ofWord fact.col),
    ("extent_end_line", .ofWord fact.endLine)]

def ReferenceFact.toJson (fact : ReferenceFact) : Json :=
  .obj [("symbol", .str fact.symbol), ("line", .ofWord fact.line), ("col", .ofWord fact.col),
    ("kind", .str fact.usage.name)]

def CallEdge.toJson (edge : CallEdge) : Json :=
  .obj [("caller", .str edge.caller), ("callee", .str edge.callee), ("line", .ofWord edge.line)]

def IncludeDep.toJson (dep : IncludeDep) : Json :=
  .obj [("path", .str dep.path), ("depth", .ofWord dep.depth)]

namespace Extraction

def members (result : Extraction) : List (String × Json) :=
  [("file", .str result.file), ("symbols", .arr (result.symbols.map (·.toJson))),
   ("references", .arr (result.references.map (·.toJson))),
   ("call_edges", .arr (result.callEdges.map (·.toJson))),
   ("include_deps", .arr (result.includeDeps.map (·.toJson))), ("success", .bool result.success),
   ("diagnostics", .ofTexts result.diagnostics)]

def toJson (result : Extraction) : Json := .obj result.members

end Extraction

end UnitFacts
