import UnitFacts.Text.Basic
import UnitFacts.Text.Digit
import UnitFacts.Tree.Basic

/-!
What the compiler prints beside its tree. A header line is a row of dots, a blank and a path, one
dot a level of inclusion. A diagnostic line has `:line:column: label: ` in it; a driver line starts
with the name of the compiler. Every other line says nothing.
-/

namespace UnitFacts

structure Messages where
  inclusions : List Inclusion := []
  diagnostics : List Diagnostic := []
  deriving DecidableEq, Repr

namespace Messages

/-- A run of decimal digits of any script, and what follows it. -/
def afterDigits? (cs : List Char) : Option (List Char) :=
  if (cs.takeWhile Text.isDecimalDigit).isEmpty then none else some (cs.dropWhile Text.isDecimalDigit)

def afterText? (text : String) (cs : List Char) : Option (List Char) := text.toList.isPrefixOf? cs

def labels : List (String × Severity) :=
  [("fatal error", .fatal), ("error", .error), ("warning", .warning), ("note", .note)]

/-- The severity whose label, with a colon and a blank, stands here. -/
def labelHere? (labels : List (String × Severity)) (cs : List Char) : Option Severity :=
  labels.findSome? fun (label, severity) =>
    if (afterText? (label ++ ": ") cs).isSome then some severity else none

/-- Reads `:digits:digits: label: ` at this very place. -/
def siteHere? (cs : List Char) : Option Severity := do
  let cs ← afterText? ":" cs
  let cs ← afterDigits? cs
  let cs ← afterText? ":" cs
  let cs ← afterDigits? cs
  let cs ← afterText? ": " cs
  labelHere? labels cs

/-- The severity at the first place of a line that reads as a site. -/
def site? : List Char → Option Severity
  | [] => none
  | c :: rest => (siteHere? (c :: rest)).or (site? rest)

def compilerNames : List String := ["clang", "clang++", "clang-cl"]

def afterVersion (cs : List Char) : List Char := ((afterText? "-" cs).bind afterDigits?).getD cs

def afterSuffix (cs : List Char) : List Char := (afterText? ".exe" cs).getD cs

/-- The severity of a line that the compiler driver prints under its own name. -/
def driver? (cs : List Char) : Option Severity :=
  compilerNames.findSome? fun name => do
    let cs ← afterText? name cs
    let cs ← afterText? ": " (afterSuffix (afterVersion cs))
    labelHere? (labels.filter fun (label, _) => label ≠ "note") cs

/-- The inclusion that a header line records. -/
def header? (cs : List Char) : Option Inclusion :=
  let dots := cs.takeWhile fun c => c = '.'
  match cs.dropWhile fun c => c = '.' with
  | ' ' :: path =>
    if dots.isEmpty || path.isEmpty then none
    else some ⟨String.ofList (Text.trim path), UInt32.ofNat dots.length⟩
  | _ => none

/-- Adds what one line says, blanks at its end left out. -/
def addLine (messages : Messages) (line : List Char) : Messages :=
  let line := Text.trimEnd line
  match header? line with
  | some inclusion => { messages with inclusions := messages.inclusions ++ [inclusion] }
  | none =>
    match (site? line).or (driver? line) with
    | some severity =>
      { messages with diagnostics := messages.diagnostics ++ [⟨severity, String.ofList line⟩] }
    | none => messages

def parse (text : String) : Messages := (Text.lines text.toList).foldl addLine {}

/-- The first line that reports an error, which explains why there is no tree. -/
def firstError? (messages : Messages) : Option String :=
  (messages.diagnostics.find? fun d => d.severity.isError).map (·.message)

end Messages

end UnitFacts
