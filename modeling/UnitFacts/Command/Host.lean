import UnitFacts.Compiler.Frontend

/-!
What a command needs from the machine it runs on, and a machine that is kept in memory.
-/

namespace UnitFacts

/-- The machine as a command sees it. Paths are relative to the current directory, which has `depth`
directories above it. -/
structure Host (m : Type → Type) where
  environment : m (List (String × String))
  /-- The current directory, as it is shown to the user. -/
  here : m String
  depth : m Nat
  isFile : String → m Bool
  isDir : String → m Bool
  read : String → m (Except FileError String)
  write : String → String → m (Except FileError Unit)
  makeDir : String → m (Except FileError Unit)
  compile : String → List String → m CompilerRun
  sources : m Sources
  /-- What is left open this time. -/
  leeway : m Leeway
  out : String → m Unit
  err : String → m Unit

/-- A machine in memory: its files, the programs among them with what running each comes to, and
what has been printed. -/
structure Machine where
  files : FileTable String := {}
  programs : List (Place × CompilerRun) := []
  /-- A directory that is shown by a name of its own. -/
  top : Place := []
  topName : String := ""
  cwd : Place := []
  environment : List (String × String) := []
  stdout : String := ""
  stderr : String := ""

namespace Machine

def hasFile (machine : Machine) (path : String) : Bool :=
  machine.files.leadsTo machine.cwd path machine.files.isFile

def hasDir (machine : Machine) (path : String) : Bool :=
  machine.files.leadsTo machine.cwd path machine.files.isDir

/-- Looks for a program in the places where programs are. None is there, but every directory has an
entry for itself and for the one above it. -/
def search (name : String) : CompilerRun :=
  if FileTable.nameLimit < name.utf8ByteSize then .notStarted FileError.nameTooLong.message
  else if name = "." || name = ".." then .notStarted FileError.permissionDenied.message
  else .notFound

/-- Starts the program at a path; what is no program may not be started. -/
def startAt (machine : Machine) (path : String) : CompilerRun :=
  match machine.files.locate machine.cwd path with
  | .error .notFound => .notFound
  | .error reason => .notStarted reason.message
  | .ok place =>
    match machine.programs.lookup place with
    | some run => run
    | none =>
      if machine.files.isFile place || machine.files.isDir place then
        .notStarted FileError.permissionDenied.message
      else .notFound

/-- Starts a program with its arguments. A name without a slash is searched for. -/
def start (machine : Machine) (binary : String) (args : List String) : CompilerRun :=
  if (binary :: args).any fun word => word.toList.contains (Char.ofNat 0) then
    .notStarted FileError.nulCharacter.message
  else if binary.toList.contains '/' then machine.startAt binary
  else search binary

def sources (machine : Machine) : Sources := .ofFiles machine.cwd machine.files

/-- Changes the files, unless that is refused. -/
def changeFiles (change : Machine → Except FileError (FileTable String)) :
    StateM Machine (Except FileError Unit) := do
  let machine ← get
  match change machine with
  | .ok files =>
    set { machine with files }
    return .ok ()
  | .error reason => return .error reason

def host : Host (StateM Machine) where
  environment := do return (← get).environment
  here := do
    let machine ← get
    return "/".intercalate (machine.topName :: machine.cwd.drop machine.top.length)
  depth := do return (← get).cwd.length
  isFile path := do return (← get).hasFile path
  isDir path := do return (← get).hasDir path
  read path := do
    let machine ← get
    return machine.files.read machine.cwd path
  write path text := changeFiles fun machine => machine.files.write machine.cwd path text
  makeDir path := changeFiles fun machine => machine.files.makeDir machine.cwd path
  compile binary args := do return (← get).start binary args
  sources := do return (← get).sources
  leeway := return .plain
  out text := modify fun machine => { machine with stdout := machine.stdout ++ text }
  err text := modify fun machine => { machine with stderr := machine.stderr ++ text }

end Machine

end UnitFacts
