import SourceAtlas.Analysis.Basic
import SourceAtlas.Analysis.File
import SourceAtlas.CommandLine.Arguments
import SourceAtlas.CommandLine.Program
import SourceAtlas.Console
import SourceAtlas.Decimal.Nearest
import SourceAtlas.Decimal.Shortest
import SourceAtlas.Decimal.Written
import SourceAtlas.Declaration.Catalog
import SourceAtlas.Declaration.Extract
import SourceAtlas.Declaration.Rule
import SourceAtlas.DirectoryTree.Basic
import SourceAtlas.DirectoryTree.Json
import SourceAtlas.DirectoryTree.View
import SourceAtlas.Failure
import SourceAtlas.FileSystem
import SourceAtlas.Ignore.Glob
import SourceAtlas.Ignore.Rule
import SourceAtlas.Interpreter.Dump
import SourceAtlas.Interpreter.Run
import SourceAtlas.Json.Basic
import SourceAtlas.Json.Numeral
import SourceAtlas.Json.Printer
import SourceAtlas.Json.Reader
import SourceAtlas.Language
import SourceAtlas.Main
import SourceAtlas.Ordered.NameSet
import SourceAtlas.Ordered.Table
import SourceAtlas.Path
import SourceAtlas.Pattern.Basic
import SourceAtlas.Pattern.Search
import SourceAtlas.Proofs.Lines
import SourceAtlas.Proofs.Names
import SourceAtlas.Proofs.Order
import SourceAtlas.Proofs.TreeLookup
import SourceAtlas.Record.Basic
import SourceAtlas.Record.Json
import SourceAtlas.Record.Node
import SourceAtlas.Record.Set
import SourceAtlas.Report.Basic
import SourceAtlas.Report.Insight
import SourceAtlas.Report.Json
import SourceAtlas.Report.Ranking
import SourceAtlas.Report.Stats
import SourceAtlas.Report.Text
import SourceAtlas.Settings.Basic
import SourceAtlas.Settings.Check
import SourceAtlas.Settings.Json
import SourceAtlas.Settings.Layer
import SourceAtlas.Settings.Value
import SourceAtlas.Settings.Variable
import SourceAtlas.Syntax.Cursor
import SourceAtlas.Syntax.Graph
import SourceAtlas.Syntax.Statement
import SourceAtlas.Syntax.Tree
import SourceAtlas.Text.Blank
import SourceAtlas.Text.CodeRange
import SourceAtlas.Text.Escape
import SourceAtlas.Text.Lines
import SourceAtlas.Text.Lowercase
import SourceAtlas.Text.Part
import SourceAtlas.Text.Printable
import SourceAtlas.Text.Quoted
import SourceAtlas.Text.Utf8
import SourceAtlas.Text.Word
import SourceAtlas.Toml.Reader
import SourceAtlas.Toml.Scalar
import SourceAtlas.Toml.Table
import SourceAtlas.Walk.Basic
import SourceAtlas.Walk.Records
import SourceAtlas.Proofs.TreeView
import SourceAtlas.Proofs.PlainDescription
import SourceAtlas.Proofs.Extraction
import SourceAtlas.Proofs.Places
import SourceAtlas.Proofs.WalkOrder
import SourceAtlas.Proofs.WalkDepth
import SourceAtlas.Proofs.RecordSet
import SourceAtlas.Proofs.WalkRecords
import SourceAtlas.Proofs.WalkFiles
import SourceAtlas.Proofs.ReportTree
import SourceAtlas.Proofs.RecordInvariant
import SourceAtlas.Proofs.SyntaxDepth
import SourceAtlas.Proofs.Fallback
import SourceAtlas.Proofs.LanguageTotals
import SourceAtlas.Proofs.ReportOrder
import SourceAtlas.Proofs.JsonValues
import SourceAtlas.Proofs.RecordJson
import SourceAtlas.Proofs.JsonLexemes
import SourceAtlas.Proofs.JsonText
import SourceAtlas.Proofs.AnalysisUnits
import SourceAtlas.Proofs.ReportText
import SourceAtlas.Proofs.DescribedObjects
import SourceAtlas.Proofs.ExtensionKeys
import SourceAtlas.Proofs.LayerMerge
import SourceAtlas.Proofs.LayerSources
import SourceAtlas.Proofs.SettingsLayers
import SourceAtlas.Proofs.DescribedChildren
import SourceAtlas.Proofs.DrawingGrammar
import SourceAtlas.Proofs.TreePaths
import SourceAtlas.Proofs.Positions
import SourceAtlas.Proofs.SyntaxFaults
import SourceAtlas.Proofs.DeclaredNames
import SourceAtlas.Proofs.Blanks
import SourceAtlas.Proofs.LineUnits
import SourceAtlas.Proofs.CatalogExtension
import SourceAtlas.Proofs.LineEndings
import SourceAtlas.Proofs.PatternFits
import SourceAtlas.Proofs.Search
import SourceAtlas.Proofs.LongestName
import SourceAtlas.Proofs.FunctionNames
import SourceAtlas.Proofs.LossyDecoding
import SourceAtlas.Proofs.RawLines
import SourceAtlas.Proofs.Ranking
import SourceAtlas.Proofs.LanguageGroups
import SourceAtlas.Proofs.InsightGrowth
import SourceAtlas.Proofs.DescriptionDepth
import SourceAtlas.Proofs.OffsetRange
import SourceAtlas.Proofs.LanguageResolution
import SourceAtlas.Proofs.RelativePaths
