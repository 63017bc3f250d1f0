import UnitFacts.Settings.Basic
import UnitFacts.Toml.Printer

/-!
Settings as a TOML document, a section for each group of settings.
-/

namespace UnitFacts.Settings

def sections (settings : Settings) : List Toml.Section :=
  [{ entries := [("version", .number settings.version)] },
   { path := ["extraction"]
     entries := [
       ("default_action", .text settings.extraction.defaultAction.name),
       ("include_warnings", .flag settings.extraction.includeWarnings),
       ("pretty", .flag settings.extraction.pretty)] },
   { path := ["clang"]
     entries := [
       ("binary", .text settings.clang.binary),
       ("extra_args", .texts settings.clang.extraArgs),
       ("system_prefixes", .texts settings.clang.systemPrefixes)] },
   { path := ["logging"], entries := [("default", .text settings.logging.default)] },
   { path := ["logging", "modules"]
     entries := settings.logging.modules.map fun (name, level) => (name, .text level) }]

def toToml (settings : Settings) : String := Toml.render settings.sections

end UnitFacts.Settings
