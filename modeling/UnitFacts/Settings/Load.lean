import UnitFacts.Settings.Decoder
import UnitFacts.Settings.Environment
import UnitFacts.Toml.Reader

/-!
Settings out of their layers: the defaults, a TOML document, the environment. Later layers win key
by key.
-/

namespace UnitFacts.Settings

inductive LoadError where
  /-- A text in the environment cannot be cut. -/
  | brokenCharacter
  | notToml
  | mismatch (problem : Mismatch)
  deriving DecidableEq, Repr

def LoadError.message : LoadError → String
  | .brokenCharacter => "a text in the environment ends inside of a character"
  | .notToml => "the settings file is not a TOML document"
  | .mismatch problem => ".".intercalate problem.path ++ ": " ++ problem.fault.message

def ofTexts (items : List String) : Value := .list (items.map .text)

/-- Settings as a layer. -/
def toValue (settings : Settings) : Value :=
  .ofEntries [
    ("version", .int settings.version),
    ("extraction", .ofEntries [
      ("default_action", .text settings.extraction.defaultAction.name),
      ("include_warnings", .flag settings.extraction.includeWarnings),
      ("pretty", .flag settings.extraction.pretty)]),
    ("clang", .ofEntries [
      ("binary", .text settings.clang.binary),
      ("extra_args", ofTexts settings.clang.extraArgs),
      ("system_prefixes", ofTexts settings.clang.systemPrefixes)]),
    ("logging", .ofEntries [
      ("default", .text settings.logging.default),
      ("modules", .ofEntries (settings.logging.modules.map fun (key, level) => (key, .text level)))])]

/-- The layer in the text of a settings file; a file that does not exist adds nothing. -/
def fileLayer? : Option String → Option Value
  | some text => Toml.parse? text
  | none => some .emptyTable

/-- The environment is read whatever the file holds. -/
def load (file : Option String) (environment : List (String × String)) : Except LoadError Settings :=
  match Environment.layer? environment, fileLayer? file with
  | none, _ => .error .brokenCharacter
  | some _, none => .error .notToml
  | some variablesLayer, some layer =>
    match Decoder.settings (((toValue {}).merge layer).merge variablesLayer) with
    | .ok settings => .ok settings
    | .error problem => .error (.mismatch problem)

end UnitFacts.Settings
