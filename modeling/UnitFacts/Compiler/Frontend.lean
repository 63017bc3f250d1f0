import UnitFacts.Dump.Import
import UnitFacts.Extract
import UnitFacts.Json.Reader
import UnitFacts.Settings.Basic
import UnitFacts.Snapshot

/-!
From a source file to its facts by way of the compiler. A run that prints a readable tree succeeds,
whatever its exit status and its diagnostics; every other outcome is one of the failures, each with
its message.
-/

namespace UnitFacts

/-- What came of starting the compiler: it was not there, or could not be started for some other reason, or it
ended in some way, with what it printed. The reason and the way it ended are put in the words of the system. -/
inductive CompilerRun where
  | notFound
  | notStarted (reason : String)
  | finished (status stdout stderr : String)
  deriving DecidableEq, Repr

/-- Why there is no tree. -/
inductive Failure where
  | unavailable (binary : String)
  | notStarted (binary reason : String)
  | noTree (file status : String) (firstError : Option String)
  | dumpNotJson (file reason : String)
  | dumpNotUnit (file : String)
  | snapshotNotTree (path reason : String)
  | badSnapshot (path : String) (fault : Fault)
  | snapshotIsDirectory (path : String)
  | unreadable (reason : FileError)
  deriving DecidableEq, Repr

namespace Failure

def unitFailure (file reason : String) : String := "Failed to parse translation unit " ++ file ++ ": " ++ reason

def snapshotFailure (path reason : String) : String := "Invalid snapshot " ++ path ++ ": " ++ reason

def message : Failure → String
  | .unavailable binary =>
    "Failed to start '" ++ binary ++
      "': not found on PATH (set clang.binary or CPPFACTS_CLANG__BINARY)"
  | .notStarted binary reason => "Failed to run '" ++ binary ++ "': " ++ reason
  | .noTree file status firstError =>
    unitFailure file ("clang produced no AST (" ++ status ++ ")" ++
      ((firstError.map fun line => ": " ++ line).getD ""))
  | .dumpNotJson file reason => unitFailure file ("unreadable AST dump: " ++ reason)
  | .dumpNotUnit file =>
    unitFailure file "unreadable AST dump: top-level node is not a TranslationUnitDecl"
  | .snapshotNotTree path reason => snapshotFailure path reason
  | .badSnapshot path fault => snapshotFailure path fault.message
  | .snapshotIsDirectory path => snapshotFailure path FileError.isADirectory.message
  | .unreadable reason => "IO error: " ++ reason.message

/-- Whether the compiler could not be started at all. -/
def isSetup : Failure → Bool
  | .unavailable _ | .notStarted .. => true
  | _ => false

end Failure

/-- What an extraction leaves open: the order in which tables are gone through, and the words for what keeps a
text from being a dump or a snapshot. -/
structure Leeway where
  order : Dump.TableOrder
  dumpError : String → String
  snapshotError : String → String

/-- The order of the document, and the same words for all that may be wrong with a text. -/
def Leeway.plain : Leeway where
  order := .ofDocument
  dumpError _ := "<json error>"
  snapshotError _ := "<json error>"

namespace Frontend

def isBlankText (text : String) : Bool := text.toList.all Text.isBlank

def importTree (ctx : Dump.Context) (messages : Messages) (dump : Json) : Except Failure Tree :=
  match Dump.importTree? ctx messages dump with
  | some t => .ok t
  | none => .error (.dumpNotUnit ctx.mainFile)

/-- What the dump of an invocation is read with. -/
def context (order : Dump.TableOrder) (compiler : CompilerSettings) (sources : Sources) (file : String)
    (args : List String) : Dump.Context where
  mainFile := file
  headers := SystemHeaders.forInvocation compiler.systemPrefixes args
  sources := sources
  order := order

/-- The tree of a file, out of a run of the compiler on it. -/
def tree (leeway : Leeway) (compiler : CompilerSettings) (run : CompilerRun) (sources : Sources) (file : String)
    (args : List String) : Except Failure Tree :=
  match run with
  | .notFound => .error (.unavailable compiler.binary)
  | .notStarted reason => .error (.notStarted compiler.binary reason)
  | .finished status stdout stderr =>
    let messages := Messages.parse stderr
    if isBlankText stdout then .error (.noTree file status messages.firstError?)
    else
      match Json.parse? stdout with
      | none => .error (.dumpNotJson file (leeway.dumpError stdout))
      | some dump => importTree (context leeway.order compiler sources file args) messages dump

/-- The facts of a file, out of a run of the compiler on it. -/
def extract (leeway : Leeway) (settings : Settings) (action : Action) (run : CompilerRun) (sources : Sources)
    (file : String) (args : List String) : Extraction :=
  match tree leeway settings.clang run sources file args with
  | .ok t => t.extract file ⟨action, settings.extraction.includeWarnings⟩
  | .error failure => .failed (Path.normalise file) failure.message

/-- The tree in a snapshot file, out of what reading the file gave. -/
def snapshotTree (leeway : Leeway) (path : String) (content : Except FileError String) : Except Failure Tree :=
  match content with
  | .error .isADirectory => .error (.snapshotIsDirectory path)
  | .error reason => .error (.unreadable reason)
  | .ok text =>
    match Snapshot.read text with
    | .ok t => .ok t
    | .error .notATree => .error (.snapshotNotTree path (leeway.snapshotError text))
    | .error (.faulty fault) => .error (.badSnapshot path fault)

/-- The facts of a snapshot, reported for the file it was taken from. -/
def extractSnapshot (leeway : Leeway) (path : String) (content : Except FileError String)
    (options : ExtractOptions) : Extraction :=
  match snapshotTree leeway path content with
  | .ok t => t.extract ((t.mainFile?.map (·.path)).getD path) options
  | .error failure => .failed (Path.normalise path) failure.message

end Frontend

end UnitFacts
