import InterfaceSchemes.Text.Basic
import InterfaceSchemes.Text.Blank
import InterfaceSchemes.Text.Word
import InterfaceSchemes.Text.Printable
import InterfaceSchemes.Path.Basic
import InterfaceSchemes.Path.Relative
import InterfaceSchemes.Settings
import InterfaceSchemes.Record
import InterfaceSchemes.Scheme.Basic
import InterfaceSchemes.Glob.Pattern
import InterfaceSchemes.FileTree.Failure
import InterfaceSchemes.Decimal.Binary
import InterfaceSchemes.Decimal.Shortest
import InterfaceSchemes.Json.Number
import InterfaceSchemes.Json.Token
import InterfaceSchemes.Text.Quoted
import InterfaceSchemes.Json.Fault
import InterfaceSchemes.Json.Reader
import InterfaceSchemes.Settings.Reader
import InterfaceSchemes.Error
import InterfaceSchemes.Placement
import InterfaceSchemes.Declaration.Basic
import InterfaceSchemes.Declaration.Field
import InterfaceSchemes.DependencyOrder
import InterfaceSchemes.Scheme.Registry
import InterfaceSchemes.OutputModule
import InterfaceSchemes.Batch
import InterfaceSchemes.Text.Utf8
import InterfaceSchemes.FileTree.Basic
import InterfaceSchemes.FileTree.Access
import InterfaceSchemes.Discovery
import InterfaceSchemes.Storage
import InterfaceSchemes.Json.Layout
import InterfaceSchemes.Command.Arguments
import InterfaceSchemes.Command.Outcome
import InterfaceSchemes.Command.Run
import InterfaceSchemes.Fixture.ErrorPattern
import InterfaceSchemes.Fixture.Case
import InterfaceSchemes.Fixture.Report
import InterfaceSchemes.Main
import InterfaceSchemes.Proofs.Fallible
import InterfaceSchemes.Proofs.Text
import InterfaceSchemes.Proofs.DependencyOrder
import InterfaceSchemes.Proofs.Refusal
import InterfaceSchemes.Proofs.Declaration
import InterfaceSchemes.Proofs.FirstOccurrence
import InterfaceSchemes.Proofs.WellFormed
import InterfaceSchemes.Proofs.Emission
import InterfaceSchemes.Proofs.SchemeText
import InterfaceSchemes.Proofs.History
import InterfaceSchemes.Proofs.UniqueReading
import InterfaceSchemes.Proofs.Grouping
import InterfaceSchemes.Proofs.ModuleContents
import InterfaceSchemes.Proofs.Path
import InterfaceSchemes.Proofs.Cleaning
import InterfaceSchemes.Proofs.Placement
import InterfaceSchemes.Proofs.Resolution
import InterfaceSchemes.Proofs.Conversion
import InterfaceSchemes.Proofs.Scoping
import InterfaceSchemes.Proofs.Validity
import InterfaceSchemes.Proofs.Layout
import InterfaceSchemes.Proofs.Expression
import InterfaceSchemes.Proofs.Extraction
import InterfaceSchemes.Proofs.Scanning
import InterfaceSchemes.Proofs.Omission
import InterfaceSchemes.Proofs.Reordering
import InterfaceSchemes.Proofs.Enlargement
import InterfaceSchemes.Proofs.FileTree
import InterfaceSchemes.Proofs.SelfImport
import InterfaceSchemes.Proofs.Writing
import InterfaceSchemes.Proofs.Discovery
import InterfaceSchemes.Proofs.Generation
import InterfaceSchemes.Proofs.Marking
import InterfaceSchemes.Proofs.LoadOrder
import InterfaceSchemes.Proofs.Relocation
import InterfaceSchemes.Proofs.Rerooting
import InterfaceSchemes.Proofs.Respelling
import InterfaceSchemes.Proofs.FixtureRun
import InterfaceSchemes.Proofs.Stability
import InterfaceSchemes.Proofs.Reachability
import InterfaceSchemes.Proofs.CanonicalPath
import InterfaceSchemes.Proofs.Bookkeeping
import InterfaceSchemes.Proofs.Search
import InterfaceSchemes.Proofs.JsonSpelling
import InterfaceSchemes.Proofs.SettingsDocument
