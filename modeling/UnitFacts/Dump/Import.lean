import UnitFacts.Compiler.Messages
import UnitFacts.Dump.Links

/-!
From a dump to a tree. The document must be an object of the class of a whole unit; whatever is odd
below that never stops the reading.
-/

namespace UnitFacts.Dump

def unitClass : String := "TranslationUnitDecl"

/-- The tree of a dumped unit, with what the compiler printed beside it. -/
def treeOf (ctx : Context) (messages : Messages) (root : Node) : Tree :=
  { (buildRoot ctx root).linked ctx with
    inclusions := messages.inclusions
    diagnostics := messages.diagnostics }

/-- Reads a dump; nothing comes of a document that is no unit. -/
def importTree? (ctx : Context) (messages : Messages) (dump : Json) : Option Tree :=
  match Node.ofJson? dump with
  | some root => if root.attrs.cls = unitClass then some (treeOf ctx messages root) else none
  | none => none

end UnitFacts.Dump
