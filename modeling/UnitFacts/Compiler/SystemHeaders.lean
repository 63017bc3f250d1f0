import UnitFacts.Compiler.Arguments

/-!
Which files are library headers: those under the configured directories or an `-isystem` directory
of the invocation, and the compiler's pseudo-files such as `<built-in>`.
-/

namespace UnitFacts

structure SystemHeaders where
  roots : List String
  deriving DecidableEq, Repr

namespace SystemHeaders

def ofRoots (roots : List String) : SystemHeaders := ⟨(roots.map Path.normalise).filter fun root => root ≠ ""⟩

def forInvocation (configured args : List String) : SystemHeaders :=
  ofRoots (configured ++ Arguments.systemDirs args)

def isSystem (headers : SystemHeaders) (path : String) : Bool :=
  Text.startsWith "<" path || headers.roots.any fun root => Path.isUnder (Path.normalise path) root

end SystemHeaders

end UnitFacts
