import UnitFacts.Command.Host
import UnitFacts.CommandLine.Reader
import UnitFacts.Facts.Report
import UnitFacts.Settings.Load
import UnitFacts.Settings.Save

/-!
The commands. Facts and trees go to standard output or into a file, complaints to standard error; the
exit status tells a unit without a tree from a command that could not be carried out.
-/

namespace UnitFacts

inductive ExitStatus where
  | success
  /-- There is no tree. -/
  | noTree
  /-- The arguments, the settings or a file are at fault. -/
  | fault
  /-- The run was given up without a word. -/
  | aborted
  deriving DecidableEq, Repr

def ExitStatus.code : ExitStatus → Nat
  | .success => 0
  | .noTree => 1
  | .fault => 2
  | .aborted => 101

namespace Command

open CommandLine

def settingsDir : String := ".cppfacts"

def settingsPath : String := settingsDir ++ "/settings.toml"

def versionLine : String := "cppfacts 0.3.0\n"

def usage : String :=
  "Usage: cppfacts [--config PATH] COMMAND\n\n" ++
  "  extract --file FILE [--action ACTION] [--snapshot] [--output PATH] [--compact]\n" ++
  "          [--include-warnings] [-- COMPILER_ARGS]\n" ++
  "  dump --file FILE [--output PATH] [--compact] [-- COMPILER_ARGS]\n" ++
  "  init [--force]\n" ++
  "  config\n"

/-- The words about a command line that cannot be carried out. -/
def complaint : Refusal → String
  | .helpAsked | .versionAsked | .nothingAsked => usage
  | .missingCommand => "error: a command is required\n"
  | .unknownCommand => "error: unknown command\n"
  | .missingOption => "error: the option --file is required\n"
  | .unknownOption => "error: unexpected argument\n"
  | .missingValue => "error: an option needs a value\n"
  | .badValue => "error: an option has an invalid value\n"
  | .repeatedOption => "error: an option is given twice\n"
  | .unneededValue => "error: an option takes no value\n"

/-- The settings with what the command line says over them. -/
def overridden (settings : Settings) (request : ExtractRequest) : Settings :=
  { settings with
    extraction := {
      defaultAction := request.action.getD settings.extraction.defaultAction
      includeWarnings := request.includeWarnings || settings.extraction.includeWarnings
      pretty := settings.extraction.pretty && !request.compact } }

variable {m : Type → Type} [Monad m] (host : Host m)

def complain (text : String) : m ExitStatus := do
  host.err ("Error: " ++ text ++ "\n")
  return .fault

/-- Starts from here, then from each directory above. -/
def upwards (path : String) : m (List String) := do
  let depth ← host.depth
  return (List.range (depth + 1)).map fun n => String.join (List.replicate n "../") ++ path

/-- The text of a file, if there is one. -/
def textOf? (path : String) : m (Option String) := do
  if ← host.isFile path then
    match ← host.read path with
    | .ok text => return some text
    | .error _ => return none
  else return none

/-- The text of the settings file. One that is named is looked for here and in the directories
above, unless its path is absolute; otherwise it stands in the nearest settings directory. -/
def settingsText? : Option String → m (Option String)
  | some path => do
    let candidates ← if Text.startsWith "/" path then pure [path] else upwards host path
    match ← candidates.findM? host.isFile with
    | some found => textOf? host found
    | none => return none
  | none => do
    match ← (← upwards host settingsDir).findM? host.isDir with
    | some dir => textOf? host (dir ++ "/settings.toml")
    | none => return none

def loadSettings (config : Option String) : m (Except Settings.LoadError Settings) := do
  return Settings.load (← settingsText? host config) (← host.environment)

/-- Runs the compiler on a file. -/
def compile (settings : Settings) (file : String) (args : List String) : m CompilerRun :=
  host.compile settings.clang.binary (Arguments.command settings.clang.extraArgs file args)

def extraction (settings : Settings) (request : ExtractRequest) : m Extraction := do
  let action := settings.extraction.defaultAction
  if request.snapshot then
    let content ← host.read request.file
    return Frontend.extractSnapshot (← host.leeway) request.file content
      ⟨action, settings.extraction.includeWarnings⟩
  else
    let run ← compile host settings request.file request.compileArgs
    let sources ← host.sources
    return Frontend.extract (← host.leeway) settings action run sources request.file request.compileArgs

def runExtract (settings : Settings) (request : ExtractRequest) : m ExitStatus := do
  let settings := overridden settings request
  let result ← extraction host settings request
  let text := result.toJson.renderLine (.ofPretty settings.extraction.pretty)
  let status := if result.success then ExitStatus.success else .noTree
  match request.output with
  | none =>
    host.out text
    return status
  | some path =>
    match ← host.write path text with
    | .ok () => return status
    | .error reason => complain host ("Failed to create " ++ path ++ ": " ++ reason.message)

def runDump (settings : Settings) (request : DumpRequest) : m ExitStatus := do
  let pretty := settings.extraction.pretty && !request.compact
  let run ← compile host settings request.file request.compileArgs
  let sources ← host.sources
  match Frontend.tree (← host.leeway) settings.clang run sources request.file request.compileArgs with
  | .error failure =>
    host.err ("Error: " ++ failure.message ++ "\n")
    return .noTree
  | .ok t =>
    let text := Snapshot.write pretty t
    match request.output with
    | none =>
      host.out (text ++ "\n")
      return .success
    | some path =>
      match ← host.write path text with
      | .ok () =>
        host.err ("Wrote " ++ toString t.size ++ " nodes to " ++ path ++ "\n")
        return .success
      | .error reason =>
        complain host ((Failure.unreadable reason).message ++ ": " ++ reason.message)

/-- Writes the default settings into a directory of their own. -/
def saveDefaults : m (Except FileError Unit) := do
  match ← host.makeDir settingsDir with
  | .ok () => host.write settingsPath (Settings.toToml {})
  | .error reason => return .error reason

def runInit (force : Bool) : m ExitStatus := do
  let shown := (← host.here) ++ "/" ++ settingsPath
  let present := (← host.isFile settingsPath) || (← host.isDir settingsPath)
  if present && !force then
    complain host ("Configuration file already exists at " ++ shown ++ ". Use --force to overwrite")
  else
    match ← saveDefaults host with
    | .error reason => complain host reason.message
    | .ok () =>
      host.out ("Created configuration file at: " ++ shown ++
        "\nEdit this file to customize your settings.\n")
      return .success

def runConfig (settings : Settings) : m ExitStatus := do
  host.out ("# Effective configuration\n" ++ settings.toToml)
  return .success

def runCommand (settings : Settings) : CommandLine.Command → m ExitStatus
  | .extract request => runExtract host settings request
  | .dump request => runDump host settings request
  | .init force => runInit host force
  | .config => runConfig host settings

/-- Answers a command line that names no command to run. -/
def refuse (refusal : Refusal) : m ExitStatus := do
  match refusal with
  | .helpAsked =>
    host.out usage
    return .success
  | .versionAsked =>
    host.out versionLine
    return .success
  | _ =>
    host.err (complaint refusal)
    return .fault

/-- Runs the program with the words after its name. -/
def run (words : List String) : m ExitStatus := do
  let environment ← host.environment
  match CommandLine.parse (environment.lookup "CPPFACTS_ACTION") words with
  | .error refusal => refuse host refusal
  | .ok invocation =>
    match ← loadSettings host invocation.config with
    | .error .brokenCharacter => return .aborted
    | .error reason =>
      host.err ("Configuration error: " ++ reason.message ++ "\n")
      return .fault
    | .ok settings => runCommand host settings invocation.command

end Command

end UnitFacts
