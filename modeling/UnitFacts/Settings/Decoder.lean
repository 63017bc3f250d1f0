import UnitFacts.Settings.Basic
import UnitFacts.Settings.Value

/-!
Reading settings out of a value. Values are never converted: each setting takes values of its own
type and nothing else, and a setting that is missing from a table takes its default.
-/

namespace UnitFacts.Settings

inductive Fault where
  | wrongType
  | outOfRange
  | unknownChoice
  deriving DecidableEq, Repr

def Fault.message : Fault → String
  | .wrongType => "wrong type of value"
  | .outOfRange => "number out of range"
  | .unknownChoice => "unknown choice"

/-- A value that a setting does not take, with the way to it. -/
structure Mismatch where
  fault : Fault
  path : List String := []
  deriving DecidableEq, Repr

abbrev Decoder (α : Type) := Value → Except Mismatch α

namespace Decoder

def refuse {α : Type} (fault : Fault) : Except Mismatch α := .error ⟨fault, []⟩

/-- Reads a value that stands under a key. -/
def under {α : Type} (key : String) (decode : Decoder α) (value : Value) : Except Mismatch α :=
  match decode value with
  | .ok result => .ok result
  | .error problem => .error ⟨problem.fault, key :: problem.path⟩

def text : Decoder String
  | .text text => .ok text
  | .letter c => .ok (String.singleton c)
  | _ => refuse .wrongType

def flag : Decoder Bool
  | .flag value => .ok value
  | _ => refuse .wrongType

/-- A number of 32 bits. -/
def count : Decoder Nat
  | .int value => if 0 ≤ value ∧ value < 0x100000000 then .ok value.toNat else refuse .outOfRange
  | _ => refuse .wrongType

/-- An action by its name. A table names the action by its first key, but no value fits there. -/
def action : Decoder Action
  | .text name =>
    match Action.ofName? name with
    | some action => .ok action
    | none => refuse .unknownChoice
  | .table ((name, _) :: _) =>
    .error ⟨if (Action.ofName? name).isSome then .wrongType else .unknownChoice, [name]⟩
  | _ => refuse .wrongType

def texts : Decoder (List String)
  | .list items => items.zipIdx.mapM fun (item, index) => under (toString index) text item
  | _ => refuse .wrongType

def textEntries : Decoder (List (String × String))
  | .table entries => entries.mapM fun (key, value) => do return (key, ← under key text value)
  | _ => refuse .wrongType

/-- The values of a record's fields, each with the key it stands under: in a table the names of the
fields, in a list their places. -/
def fields (names : List String) : Decoder (List (Option (String × Value)))
  | .table entries => .ok (names.map fun name => (entries.lookup name).map fun value => (name, value))
  | .list items =>
    .ok (names.zipIdx.map fun (_, index) => items[index]?.map fun value => (toString index, value))
  | _ => refuse .wrongType

def field {α : Type} (decode : Decoder α) (default : α) :
    Option (String × Value) → Except Mismatch α
  | some (key, value) => under key decode value
  | none => .ok default

def extraction : Decoder ExtractionSettings := fun value => do
  match ← fields ["default_action", "include_warnings", "pretty"] value with
  | [defaultAction, includeWarnings, pretty] =>
    let defaults : ExtractionSettings := {}
    return {
      defaultAction := ← field action defaults.defaultAction defaultAction
      includeWarnings := ← field flag defaults.includeWarnings includeWarnings
      pretty := ← field flag defaults.pretty pretty }
  | _ => refuse .wrongType

def compiler : Decoder CompilerSettings := fun value => do
  match ← fields ["binary", "extra_args", "system_prefixes"] value with
  | [binary, extraArgs, systemPrefixes] =>
    let defaults : CompilerSettings := {}
    return {
      binary := ← field text defaults.binary binary
      extraArgs := ← field texts defaults.extraArgs extraArgs
      systemPrefixes := ← field texts defaults.systemPrefixes systemPrefixes }
  | _ => refuse .wrongType

def log : Decoder LogSettings := fun value => do
  match ← fields ["default", "modules"] value with
  | [default, modules] =>
    let defaults : LogSettings := {}
    return {
      default := ← field text defaults.default default
      modules := ← field textEntries defaults.modules modules }
  | _ => refuse .wrongType

def settings : Decoder Settings := fun value => do
  match ← fields ["version", "extraction", "clang", "logging"] value with
  | [version, extractionTable, clangTable, loggingTable] =>
    let defaults : Settings := {}
    return {
      version := ← field count defaults.version version
      extraction := ← field extraction defaults.extraction extractionTable
      clang := ← field compiler defaults.clang clangTable
      logging := ← field log defaults.logging loggingTable }
  | _ => refuse .wrongType

end Decoder

end UnitFacts.Settings
