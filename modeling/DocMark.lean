import DocMark.Check
import DocMark.CommandLine
import DocMark.ConfigFile
import DocMark.ConfigSearch
import DocMark.Decimal
import DocMark.Discovery
import DocMark.DocumentStart
import DocMark.ExitStatus
import DocMark.Failure
import DocMark.FileTree
import DocMark.Glob
import DocMark.Glob.Parser
import DocMark.IgnoreList
import DocMark.Json
import DocMark.Json.Reader
import DocMark.Lint
import DocMark.LogLevel
import DocMark.Main
import DocMark.Output
import DocMark.Paint
import DocMark.Path
import DocMark.Path.Raw
import DocMark.Problem
import DocMark.Problem.Json
import DocMark.Program
import DocMark.Proofs.DiagnosticOrder
import DocMark.Report
import DocMark.Report.Excerpt
import DocMark.Report.Row
import DocMark.Rule
import DocMark.Run
import DocMark.Selection
import DocMark.Settings
import DocMark.Statistics
import DocMark.Suppression
import DocMark.Text.Bytes
import DocMark.Text.Lines
import DocMark.Text.Printable
import DocMark.Text.Quoted
import DocMark.Text.Space
import DocMark.Text.Utf8
import DocMark.Text.Width
import DocMark.Token
import DocMark.Token.Character
import DocMark.Token.Cursor
import DocMark.Token.Fault
import DocMark.Token.Scalar
import DocMark.Token.Scanner
import DocMark.Token.Step
import DocMark.Token.Stream
import DocMark.Token.Tag
import DocMark.Toml.Document
import DocMark.Toml.Excerpt
import DocMark.Toml.Scalar
import DocMark.Toml.Source
import DocMark.Toml.Text
import DocMark.Toml.Tree
import DocMark.Value
import DocMark.Proofs.LintReport
import DocMark.Proofs.DocumentScan
import DocMark.Proofs.RunStatus
import DocMark.Proofs.Reading
import DocMark.Proofs.ReadingTokens
import DocMark.Proofs.ScannerOrder
import DocMark.Proofs.TokenLines
import DocMark.Proofs.Directives
import DocMark.Proofs.JsonLayout
import DocMark.Proofs.RunOutput
import DocMark.Proofs.ReportDocument
import DocMark.Proofs.Summary
import DocMark.Proofs.ReportedFailures
import DocMark.Proofs.ConfigDiscovery
import DocMark.Proofs.ConfigInUse
import DocMark.Proofs.RuleNames
import DocMark.Proofs.ReportOrder
import DocMark.Proofs.FileDiscovery
import DocMark.Proofs.CheckedFiles
import DocMark.Proofs.Positions
import DocMark.Proofs.EntryPositions
import DocMark.Proofs.StreamChecks
import DocMark.Proofs.EmptyLineBounds
import DocMark.Proofs.MissingMarkers
import DocMark.Proofs.ByteOffsets
import DocMark.Proofs.DirectiveReach
import DocMark.Proofs.TokenPositions
import DocMark.Proofs.QuietTexts
import DocMark.Proofs.AttachedMarkers
import DocMark.Proofs.RuleSelection
import DocMark.Proofs.FlagsAndEntries
import DocMark.Proofs.NormalPaths
import DocMark.Proofs.RawPaths
import DocMark.Proofs.ExcludedFiles
import DocMark.Proofs.OverlappingPaths
import DocMark.Proofs.JsonRoundTrip
import DocMark.Proofs.Annotations
import DocMark.Proofs.RuleTally
import DocMark.Proofs.DistinctKeys
import DocMark.Proofs.KeyedValues
import DocMark.Proofs.ConfigSchema
import DocMark.Proofs.ParallelWalk
import DocMark.Proofs.WordArithmetic
