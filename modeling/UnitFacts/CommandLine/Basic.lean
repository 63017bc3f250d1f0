import UnitFacts.Facts.Basic

/-!
What the command line can ask for, and what can be wrong with it.
-/

namespace UnitFacts.CommandLine

structure ExtractRequest where
  file : String
  action : Option Action := none
  snapshot : Bool := false
  output : Option String := none
  compact : Bool := false
  includeWarnings : Bool := false
  compileArgs : List String := []
  deriving DecidableEq, Repr

structure DumpRequest where
  file : String
  output : Option String := none
  compact : Bool := false
  compileArgs : List String := []
  deriving DecidableEq, Repr

inductive Command where
  | extract (request : ExtractRequest)
  | dump (request : DumpRequest)
  | init (force : Bool)
  | config
  deriving DecidableEq, Repr

/-- A command, and the settings file it names. -/
structure Invocation where
  config : Option String
  command : Command
  deriving DecidableEq, Repr

/-- Why there is no command to run. The first three are answered with a text, not with a complaint. -/
inductive Refusal where
  | helpAsked
  | versionAsked
  | nothingAsked
  | missingCommand
  | unknownCommand
  | missingOption
  | unknownOption
  | missingValue
  | badValue
  | repeatedOption
  | unneededValue
  deriving DecidableEq, Repr

inductive CommandName where
  | extract
  | dump
  | init
  | config
  deriving DecidableEq, Repr

def CommandName.ofName? (name : String) : Option CommandName :=
  if name = "extract" then some .extract
  else if name = "dump" then some .dump
  else if name = "init" then some .init
  else if name = "config" then some .config
  else none

/-- The options of all commands. -/
inductive Switch where
  | config
  | file
  | action
  | snapshot
  | output
  | compact
  | includeWarnings
  | force
  | help
  | version
  deriving DecidableEq, Repr

namespace Switch

def long : Switch → String
  | .config => "config"
  | .file => "file"
  | .action => "action"
  | .snapshot => "snapshot"
  | .output => "output"
  | .compact => "compact"
  | .includeWarnings => "include-warnings"
  | .force => "force"
  | .help => "help"
  | .version => "version"

def short? : Switch → Option Char
  | .config => some 'c'
  | .file => some 'f'
  | .action => some 'a'
  | .output => some 'o'
  | .force => some 'f'
  | .help => some 'h'
  | .version => some 'V'
  | _ => none

def takesValue : Switch → Bool
  | .config | .file | .action | .output => true
  | _ => false

/-- What is wrong with a value: a path may not be empty, an action has to be known. -/
def complaint? (value : String) : Switch → Option Refusal
  | .config | .file | .output => if value = "" then some .missingValue else none
  | .action => if (Action.ofName? value).isNone then some .badValue else none
  | _ => none

end Switch

/-- The options that may stand before the command. -/
def globalSwitches : List Switch := [.config, .help, .version]

namespace CommandName

def switches : CommandName → List Switch
  | .extract => [.file, .action, .snapshot, .output, .compact, .includeWarnings, .config, .help]
  | .dump => [.file, .output, .compact, .config, .help]
  | .init => [.force, .config, .help]
  | .config => [.config, .help]

/-- Whether the words after `--` are taken as compile arguments. -/
def takesCompileArgs : CommandName → Bool
  | .extract | .dump => true
  | _ => false

end CommandName

end UnitFacts.CommandLine
