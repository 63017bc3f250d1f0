import UnitFacts.CommandLine.Basic
import UnitFacts.Text.Basic

/-!
Reading the command line, word by word. An option whose value is the next word stays open until
another option, a compile argument or the end closes it; only then is its value looked at. So of two
mistakes the one that is closed first is reported.
-/

namespace UnitFacts.CommandLine

/-- What a word looks like. -/
inductive Word where
  | plain
  | escape
  | long (name : String) (value : Option String)
  | short (letters : List Char)
  deriving DecidableEq, Repr

def Word.ofText (text : String) : Word :=
  match text.toList with
  | ['-', '-'] => .escape
  | '-' :: '-' :: rest =>
    match Text.cutAt? ['='] rest with
    | some (name, value) => .long (String.ofList name) (some (String.ofList value))
    | none => .long (String.ofList rest) none
  | ['-'] => .plain
  | '-' :: letters => .short letters
  | _ => .plain

/-- The options read so far. A flag is kept with an empty value. -/
structure Progress where
  given : List (Switch × String) := []
  /-- The option that is still open, and its value once that is read. -/
  waiting : Option (Switch × Option String) := none
  deriving DecidableEq, Repr

namespace Progress

def value? (p : Progress) (switch : Switch) : Option String := p.given.lookup switch

def has (p : Progress) (switch : Switch) : Bool := (p.value? switch).isSome

/-- Whether the next word is a value, unless it looks like an option. -/
def wantsValue (p : Progress) : Bool :=
  match p.waiting with
  | some (_, none) => true
  | _ => false

/-- Takes an option with its value. No option is given twice. -/
def accept (p : Progress) (switch : Switch) (value : String) : Except Refusal Progress :=
  if p.has switch then .error .repeatedOption
  else
    match switch.complaint? value with
    | some refusal => .error refusal
    | none => .ok { p with given := (switch, value) :: p.given }

/-- Closes the open option. -/
def settle (p : Progress) : Except Refusal Progress :=
  match p.waiting with
  | none => .ok p
  | some (_, none) => .error .missingValue
  | some (switch, some value) => { p with waiting := none }.accept switch value

def takeFlag (p : Progress) (switch : Switch) : Except Refusal Progress := do
  let p ← p.settle
  match switch with
  | .help => .error .helpAsked
  | .version => .error .versionAsked
  | _ => p.accept switch ""

def takeAttached (p : Progress) (switch : Switch) (value : String) : Except Refusal Progress := do
  (← p.settle).accept switch value

def openSwitch (p : Progress) (switch : Switch) : Except Refusal Progress := do
  return { ← p.settle with waiting := some (switch, none) }

def takeLong (p : Progress) (switches : List Switch) (name : String) (value : Option String) :
    Except Refusal Progress :=
  match switches.find? fun switch => switch.long = name with
  | none => .error .unknownOption
  | some switch =>
    match value with
    | some value => if switch.takesValue then p.takeAttached switch value else .error .unneededValue
    | none => if switch.takesValue then p.openSwitch switch else p.takeFlag switch

/-- Takes the letters of one word: flags, then maybe an option with what follows as its value. -/
def takeShort (switches : List Switch) : Progress → List Char → Except Refusal Progress
  | p, [] => .ok p
  | p, c :: rest =>
    match switches.find? fun switch => switch.short? = some c with
    | none => .error .unknownOption
    | some switch =>
      if switch.takesValue then
        match rest with
        | [] => p.openSwitch switch
        | '=' :: value => p.takeAttached switch (String.ofList value)
        | value => p.takeAttached switch (String.ofList value)
      else
        match p.takeFlag switch with
        | .ok p => takeShort switches p rest
        | .error refusal => .error refusal

/-- Takes a word that is no option: as a value if one is open. -/
def takePlain (p : Progress) (otherwise : Refusal) (text : String) : Except Refusal Progress :=
  match p.waiting with
  | some (switch, none) => .ok { p with waiting := some (switch, some text) }
  | _ => .error otherwise

end Progress

/-- Reads the words after a command's name; gives its options and the words after `--`. -/
def readOptions (name : CommandName) :
    Progress → List String → Except Refusal (Progress × List String)
  | p, [] => do return (← p.settle, [])
  | p, text :: rest =>
    match Word.ofText text with
    | .escape =>
      if rest.isEmpty || name.takesCompileArgs then do return (← p.settle, rest)
      else .error .unknownOption
    | .long long value =>
      match p.takeLong name.switches long value with
      | .ok p => readOptions name p rest
      | .error refusal => .error refusal
    | .short letters =>
      match p.takeShort name.switches letters with
      | .ok p => readOptions name p rest
      | .error refusal => .error refusal
    | .plain =>
      match p.takePlain .unknownOption text with
      | .ok p => readOptions name p rest
      | .error refusal => .error refusal

/-- The action to take: the one that is given, else the one in the environment, which is checked
like the other. -/
def chosenAction (p : Progress) (actionVariable : Option String) :
    Except Refusal (Option Action) :=
  match p.value? .action, actionVariable with
  | some name, _ => .ok (Action.ofName? name)
  | none, none => .ok none
  | none, some name =>
    match Action.ofName? name with
    | some action => .ok (some action)
    | none => .error .badValue

def requiredFile (p : Progress) : Except Refusal String :=
  match p.value? .file with
  | some file => .ok file
  | none => .error .missingOption

/-- The command with its options; `actionVariable` is the action that the environment asks for. -/
def commandOf (name : CommandName) (p : Progress) (compileArgs : List String)
    (actionVariable : Option String) : Except Refusal Command :=
  match name with
  | .extract => do
    let action ← chosenAction p actionVariable
    return .extract {
      file := ← requiredFile p
      action := action
      snapshot := p.has .snapshot
      output := p.value? .output
      compact := p.has .compact
      includeWarnings := p.has .includeWarnings
      compileArgs := compileArgs }
  | .dump => do
    return .dump {
      file := ← requiredFile p
      output := p.value? .output
      compact := p.has .compact
      compileArgs := compileArgs }
  | .init => .ok (.init (p.has .force))
  | .config => .ok .config

/-- What `help` with the names of commands after it comes to. -/
def helpRefusal : List String → Refusal
  | [] => .helpAsked
  | [name] => if name = "help" || (CommandName.ofName? name).isSome then .helpAsked else .unknownCommand
  | _ => .unknownCommand

/-- What a command line without a command comes to. -/
def withoutCommand (p : Progress) : Except Refusal Invocation := do
  let p ← p.settle
  if p.given.isEmpty then .error .nothingAsked else .error .missingCommand

/-- Reads the words before the command's name, and the rest with the command. The options of the
command are settled first; its settings file wins over one named before it. -/
def readInvocation (actionVariable : Option String) :
    Progress → List String → Except Refusal Invocation
  | p, [] => withoutCommand p
  | p, text :: rest =>
    let name? := if p.wantsValue then none else CommandName.ofName? text
    match name? with
    | some name => do
      let (options, compileArgs) ← readOptions name {} rest
      let command ← commandOf name options compileArgs actionVariable
      let p ← p.settle
      return ⟨options.value? .config <|> p.value? .config, command⟩
    | none =>
      if !p.wantsValue && text = "help" then .error (helpRefusal rest)
      else
        match Word.ofText text with
        | .escape =>
          match rest with
          | [] => withoutCommand p
          | next :: _ =>
            if next = "help" || (CommandName.ofName? next).isSome then .error .unknownOption
            else .error .unknownCommand
        | .long long value =>
          match p.takeLong globalSwitches long value with
          | .ok p => readInvocation actionVariable p rest
          | .error refusal => .error refusal
        | .short letters =>
          match p.takeShort globalSwitches letters with
          | .ok p => readInvocation actionVariable p rest
          | .error refusal => .error refusal
        | .plain =>
          match p.takePlain .unknownCommand text with
          | .ok p => readInvocation actionVariable p rest
          | .error refusal => .error refusal

/-- The invocation that the words after the program's name ask for. -/
def parse (actionVariable : Option String) (words : List String) : Except Refusal Invocation :=
  readInvocation actionVariable {} words

end UnitFacts.CommandLine
