import UnitFacts.Access
import UnitFacts.Callee
import UnitFacts.Command.Host
import UnitFacts.Command.Run
import UnitFacts.CommandLine.Basic
import UnitFacts.CommandLine.Reader
import UnitFacts.Compiler.Arguments
import UnitFacts.Compiler.Frontend
import UnitFacts.Compiler.Messages
import UnitFacts.Compiler.SystemHeaders
import UnitFacts.Dump.Build
import UnitFacts.Dump.Draft
import UnitFacts.Dump.Import
import UnitFacts.Dump.Links
import UnitFacts.Dump.Location
import UnitFacts.Dump.Node
import UnitFacts.Dump.Plan
import UnitFacts.Dump.Redeclarations
import UnitFacts.Dump.Spelled
import UnitFacts.Dump.TableOrder
import UnitFacts.Dump.TypeText
import UnitFacts.Extract
import UnitFacts.Facts.Basic
import UnitFacts.Facts.Order
import UnitFacts.Facts.Report
import UnitFacts.Files
import UnitFacts.Json.Basic
import UnitFacts.Json.Number
import UnitFacts.Json.Printer
import UnitFacts.Json.Reader
import UnitFacts.Json.Record
import UnitFacts.Json.Written
import UnitFacts.Kind
import UnitFacts.Main
import UnitFacts.Number.Double
import UnitFacts.Number.Shortest
import UnitFacts.Path
import UnitFacts.Proofs.Command.Outcome
import UnitFacts.Proofs.Compiler.Arguments
import UnitFacts.Proofs.Compiler.HeaderPaths
import UnitFacts.Proofs.Compiler.Messages
import UnitFacts.Proofs.Compiler.SystemHeaders
import UnitFacts.Proofs.Dump.Alike
import UnitFacts.Proofs.Dump.CallTargets
import UnitFacts.Proofs.Dump.Constructs
import UnitFacts.Proofs.Dump.Correspondence
import UnitFacts.Proofs.Dump.Decoration
import UnitFacts.Proofs.Dump.Delta
import UnitFacts.Proofs.Dump.Depiction
import UnitFacts.Proofs.Dump.FileTable
import UnitFacts.Proofs.Dump.Grouping
import UnitFacts.Proofs.Dump.Growth
import UnitFacts.Proofs.Dump.Inventory
import UnitFacts.Proofs.Dump.LinkedGroups
import UnitFacts.Proofs.Dump.Linking
import UnitFacts.Proofs.Dump.Locals
import UnitFacts.Proofs.Dump.Names
import UnitFacts.Proofs.Dump.Operators
import UnitFacts.Proofs.Dump.Outline
import UnitFacts.Proofs.Dump.Passes
import UnitFacts.Proofs.Dump.Reading
import UnitFacts.Proofs.Dump.Redeclarations
import UnitFacts.Proofs.Dump.Standing
import UnitFacts.Proofs.Dump.Stock
import UnitFacts.Proofs.Dump.TypeNames
import UnitFacts.Proofs.Dump.TypeTargets
import UnitFacts.Proofs.Dump.TypeText
import UnitFacts.Proofs.Dump.TypeUses
import UnitFacts.Proofs.Dump.UseLinks
import UnitFacts.Proofs.Extract.Access
import UnitFacts.Proofs.Extract.Actions
import UnitFacts.Proofs.Extract.CalleeSearch
import UnitFacts.Proofs.Extract.Calls
import UnitFacts.Proofs.Extract.Extension
import UnitFacts.Proofs.Extract.Inclusions
import UnitFacts.Proofs.Extract.Redirection
import UnitFacts.Proofs.Extract.References
import UnitFacts.Proofs.Extract.Symbols
import UnitFacts.Proofs.Facts.Ascending
import UnitFacts.Proofs.Facts.Order
import UnitFacts.Proofs.Files
import UnitFacts.Proofs.Json.Grammar
import UnitFacts.Proofs.Json.Recognition
import UnitFacts.Proofs.Json.Record
import UnitFacts.Proofs.Json.RoundTrip
import UnitFacts.Proofs.Lookup
import UnitFacts.Proofs.Path
import UnitFacts.Proofs.Snapshot.Extraction
import UnitFacts.Proofs.Snapshot.RoundTrip
import UnitFacts.Proofs.Source.Ranges
import UnitFacts.Proofs.Source.Tokens
import UnitFacts.Proofs.Text.Cuts
import UnitFacts.Proofs.Text.Utf8
import UnitFacts.Proofs.Tree.Check
import UnitFacts.Proofs.Tree.Edits
import UnitFacts.Proofs.Tree.Growth
import UnitFacts.Proofs.Tree.Label
import UnitFacts.Proofs.Tree.Links
import UnitFacts.Proofs.Tree.Nesting
import UnitFacts.Proofs.Tree.Preorder
import UnitFacts.Proofs.Tree.QualifiedName
import UnitFacts.Proofs.Tree.Scope
import UnitFacts.Proofs.Tree.Shape
import UnitFacts.Proofs.Tree.Standing
import UnitFacts.Proofs.Tree.Table
import UnitFacts.Proofs.Tree.Verdict
import UnitFacts.Proofs.Tree.Walk
import UnitFacts.Proofs.Unique
import UnitFacts.Settings.Basic
import UnitFacts.Settings.Decoder
import UnitFacts.Settings.Environment
import UnitFacts.Settings.Load
import UnitFacts.Settings.Save
import UnitFacts.Settings.Value
import UnitFacts.Snapshot
import UnitFacts.Source.Lexer
import UnitFacts.Source.Sources
import UnitFacts.Source.Token
import UnitFacts.Symbol
import UnitFacts.Text.Basic
import UnitFacts.Text.Case
import UnitFacts.Text.Cased
import UnitFacts.Text.Digit
import UnitFacts.Text.Letter
import UnitFacts.Toml.DateTime
import UnitFacts.Toml.Printer
import UnitFacts.Toml.Reader
import UnitFacts.Toml.Scalar
import UnitFacts.Toml.Table
import UnitFacts.Toml.Text
import UnitFacts.Tree.Basic
import UnitFacts.Tree.Check
import UnitFacts.Tree.Edit
import UnitFacts.Tree.Scope
import UnitFacts.Tree.Walk
import UnitFacts.Unique
