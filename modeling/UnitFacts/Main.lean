import UnitFacts.Command.Run

/-!
The program on the machine at hand. No other program is started from here, so a unit is read from
its snapshot.
-/

namespace UnitFacts.Program

def fileError : IO.Error → FileError
  | .permissionDenied .. => .permissionDenied
  | .alreadyExists .. => .alreadyExists
  | .inappropriateType .. => .isADirectory
  | _ => .notFound

def attempt {α : Type} (action : IO α) : IO (Except FileError α) := do
  try return .ok (← action)
  catch failure => return .error (fileError failure)

def succeeds (action : IO Unit) : IO Bool := do
  match ← attempt action with
  | .ok () => return true
  | .error _ => return false

/-- Reads a little of a file; a directory cannot be read. -/
def probe (path : String) : IO Unit := do
  let handle ← IO.FS.Handle.mk path .read
  discard (handle.read 1)

def splitVariable (entry : List Char) : Option (String × String) :=
  (Text.cutAt? ['='] entry).map fun (name, value) => (String.ofList name, String.ofList value)

def environment : IO (List (String × String)) := do
  match ← attempt (IO.FS.readFile "/proc/self/environ") with
  | .ok text => return (Text.splitOn (Char.ofNat 0) text.toList).filterMap splitVariable
  | .error _ => return []

def here : IO String := do return toString (← IO.currentDir)

def host : Host IO where
  environment := environment
  here := here
  depth := do return (((← here).toList.filter fun c => c = '/').length)
  isFile path := succeeds (probe path)
  isDir path := succeeds (discard (IO.FS.Handle.mk (path ++ "/.") .read))
  read path := attempt (IO.FS.readFile path)
  write path text := attempt (IO.FS.writeFile path text)
  makeDir path := attempt (IO.FS.createDirAll path)
  compile _ _ := return .notFound
  sources := return {}
  leeway := return .plain
  out := IO.print
  err := IO.eprint

end UnitFacts.Program

def main (words : List String) : IO UInt32 := do
  return UInt32.ofNat (← UnitFacts.Command.run UnitFacts.Program.host words).code
