import UnitFacts.Facts.Basic

/-!
The settings of a run and their defaults.
-/

namespace UnitFacts

structure ExtractionSettings where
  defaultAction : Action := .everything
  includeWarnings : Bool := false
  pretty : Bool := true
  deriving DecidableEq, Repr

def defaultSystemPrefixes : List String :=
  ["/usr/include", "/usr/local/include", "/usr/lib", "/Library/Developer",
   "/Applications/Xcode.app", "C:/Program Files"]

structure CompilerSettings where
  binary : String := "clang++"
  extraArgs : List String := []
  systemPrefixes : List String := defaultSystemPrefixes
  deriving DecidableEq, Repr

/-- Log levels; the modules are sorted by name. -/
structure LogSettings where
  default : String := "warn"
  modules : List (String × String) := []
  deriving DecidableEq, Repr

structure Settings where
  version : Nat := 1
  extraction : ExtractionSettings := {}
  clang : CompilerSettings := {}
  logging : LogSettings := {}
  deriving DecidableEq, Repr

namespace LogSettings

/-- Orders by name, then by level. -/
def modulesSorted (logging : LogSettings) : List (String × String) :=
  logging.modules.mergeSort fun a b => ((compare a.1 b.1).then (compare a.2 b.2)).isLE

/-- The default level, then one entry for each module. -/
def directives (logging : LogSettings) : String :=
  ",".intercalate (logging.default :: logging.modulesSorted.map fun (name, level) => name ++ "=" ++ level)

end LogSettings

end UnitFacts
