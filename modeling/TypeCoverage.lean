import TypeCoverage.Analysis.Lexical
import TypeCoverage.Analysis.Matches
import TypeCoverage.Analysis.Recording
import TypeCoverage.Analysis.Tally
import TypeCoverage.CommandLine
import TypeCoverage.Coverage
import TypeCoverage.Digest.Sha1
import TypeCoverage.Disk
import TypeCoverage.Failure
import TypeCoverage.Finding
import TypeCoverage.Glob.Approach
import TypeCoverage.Glob.Expression
import TypeCoverage.Glob.Match
import TypeCoverage.Glob.Pattern
import TypeCoverage.Imports.Invalidation
import TypeCoverage.Imports.Resolver
import TypeCoverage.Json.Basic
import TypeCoverage.Json.Fault
import TypeCoverage.Json.Parser
import TypeCoverage.Json.Printer
import TypeCoverage.Json.Schema
import TypeCoverage.Json.Skip
import TypeCoverage.Json.Token
import TypeCoverage.Log
import TypeCoverage.Main
import TypeCoverage.Number.Binary64
import TypeCoverage.Number.Notation
import TypeCoverage.Number.Reading
import TypeCoverage.Number.Shortest
import TypeCoverage.OrderedMap
import TypeCoverage.Path.Normal
import TypeCoverage.Proofs.Analysis.AfterImport
import TypeCoverage.Proofs.Analysis.Apart
import TypeCoverage.Proofs.Analysis.Excused
import TypeCoverage.Proofs.Analysis.Matches
import TypeCoverage.Proofs.Analysis.NonNull
import TypeCoverage.Proofs.Analysis.Places
import TypeCoverage.Proofs.Analysis.Plain
import TypeCoverage.Proofs.Analysis.Strictness
import TypeCoverage.Proofs.Disk
import TypeCoverage.Proofs.History.Basic
import TypeCoverage.Proofs.History.Counts
import TypeCoverage.Proofs.History.Diagnostics
import TypeCoverage.Proofs.History.Freshness
import TypeCoverage.Proofs.History.Repeated
import TypeCoverage.Proofs.History.Strictness
import TypeCoverage.Proofs.History.Warm
import TypeCoverage.Proofs.Imports.Alike
import TypeCoverage.Proofs.Imports.Chains
import TypeCoverage.Proofs.Imports.InTurn
import TypeCoverage.Proofs.Imports.Invalidation
import TypeCoverage.Proofs.Imports.Modes
import TypeCoverage.Proofs.Imports.Reached
import TypeCoverage.Proofs.Imports.Unresolved
import TypeCoverage.Proofs.Json.Decimal
import TypeCoverage.Proofs.Json.InRange
import TypeCoverage.Proofs.Json.ReadBack
import TypeCoverage.Proofs.Json.Reread
import TypeCoverage.Proofs.Json.Token
import TypeCoverage.Proofs.Number.Decimal
import TypeCoverage.Proofs.Number.Magnitude
import TypeCoverage.Proofs.OrderedMap
import TypeCoverage.Proofs.Path.Joining
import TypeCoverage.Proofs.Path.Normal
import TypeCoverage.Proofs.Report.Console
import TypeCoverage.Proofs.Report.Data
import TypeCoverage.Proofs.Result
import TypeCoverage.Proofs.Run.Basic
import TypeCoverage.Proofs.Run.Decision
import TypeCoverage.Proofs.Run.Failed
import TypeCoverage.Proofs.Run.Fresh
import TypeCoverage.Proofs.Run.Isolated
import TypeCoverage.Proofs.Run.Kept
import TypeCoverage.Proofs.Run.Order
import TypeCoverage.Proofs.Run.Reporting
import TypeCoverage.Proofs.Run.Visits
import TypeCoverage.Proofs.Selection
import TypeCoverage.Proofs.Selection.Canonical
import TypeCoverage.Proofs.Selection.Distinct
import TypeCoverage.Proofs.Selection.Packages
import TypeCoverage.Proofs.Selection.Relative
import TypeCoverage.Proofs.Source.Brackets
import TypeCoverage.Proofs.Source.Comments
import TypeCoverage.Proofs.Source.Directives
import TypeCoverage.Proofs.Source.Ignore
import TypeCoverage.Proofs.Source.Import
import TypeCoverage.Proofs.Source.ImportBlock
import TypeCoverage.Proofs.Source.ImportLine
import TypeCoverage.Proofs.Source.Join
import TypeCoverage.Proofs.Source.Lexeme
import TypeCoverage.Proofs.Source.LineEndings
import TypeCoverage.Proofs.Source.Mask
import TypeCoverage.Proofs.Source.Offsets
import TypeCoverage.Proofs.Source.Openers
import TypeCoverage.Proofs.Source.Ranges
import TypeCoverage.Proofs.Source.Returns
import TypeCoverage.Proofs.Source.Semicolon
import TypeCoverage.Proofs.Source.SpecifierLine
import TypeCoverage.Proofs.Source.Split
import TypeCoverage.Proofs.Store.Loaded
import TypeCoverage.Proofs.Store.RoundTrip
import TypeCoverage.Proofs.Store.Saved
import TypeCoverage.Proofs.Store.Snapshot
import TypeCoverage.Proofs.Text.Pieces
import TypeCoverage.Proofs.Text.Utf8
import TypeCoverage.Report
import TypeCoverage.Run.Basic
import TypeCoverage.Run.Result
import TypeCoverage.Run.Reuse
import TypeCoverage.Run.Source
import TypeCoverage.Run.Visit
import TypeCoverage.Selection
import TypeCoverage.Session
import TypeCoverage.Settings
import TypeCoverage.Source.Ignore
import TypeCoverage.Source.Import
import TypeCoverage.Source.Mask
import TypeCoverage.Source.Statement
import TypeCoverage.Source.Unit
import TypeCoverage.Store.Basic
import TypeCoverage.Store.Record
import TypeCoverage.Store.Snapshot
import TypeCoverage.Text.Alphanumeric
import TypeCoverage.Text.Basic
import TypeCoverage.Text.Blank
import TypeCoverage.Text.Lines
import TypeCoverage.Text.Quoted
import TypeCoverage.Text.Ranges
import TypeCoverage.Text.Utf8
import TypeCoverage.Text.Word
