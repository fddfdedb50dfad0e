import ScriptLint.Analysis
import ScriptLint.Catalogue
import ScriptLint.Command
import ScriptLint.Config
import ScriptLint.Config.Find
import ScriptLint.Datum
import ScriptLint.Export.Index
import ScriptLint.Export.Scan
import ScriptLint.FileTree
import ScriptLint.Ignore
import ScriptLint.Ignore.Glob
import ScriptLint.Issue
import ScriptLint.Main
import ScriptLint.Number.Binary64
import ScriptLint.Number.Shortest
import ScriptLint.Outline
import ScriptLint.Path
import ScriptLint.Record
import ScriptLint.Redeclaration
import ScriptLint.Report
import ScriptLint.Report.Text
import ScriptLint.Rule
import ScriptLint.Rule.Basic
import ScriptLint.Rule.ConsoleLeft
import ScriptLint.Rule.FakeImportSymbol
import ScriptLint.Rule.SuspiciousAsync
import ScriptLint.Rule.TodoDensity
import ScriptLint.Rule.UnreachableCode
import ScriptLint.Rule.UnusedImport
import ScriptLint.Run
import ScriptLint.Scan
import ScriptLint.Scope.Model
import ScriptLint.Scope.Symbol
import ScriptLint.Scope.Tree
import ScriptLint.Script
import ScriptLint.Severity
import ScriptLint.Source
import ScriptLint.Syntax.Cursor
import ScriptLint.Syntax.Fault
import ScriptLint.Syntax.Grammar
import ScriptLint.Syntax.Grammar.Class
import ScriptLint.Syntax.Grammar.Cover
import ScriptLint.Syntax.Grammar.Declaration
import ScriptLint.Syntax.Grammar.Element
import ScriptLint.Syntax.Grammar.Expression
import ScriptLint.Syntax.Grammar.Function
import ScriptLint.Syntax.Grammar.Item
import ScriptLint.Syntax.Grammar.Literal
import ScriptLint.Syntax.Grammar.Modifier
import ScriptLint.Syntax.Grammar.Name
import ScriptLint.Syntax.Grammar.Pattern
import ScriptLint.Syntax.Grammar.Rule
import ScriptLint.Syntax.Grammar.State
import ScriptLint.Syntax.Grammar.Statement
import ScriptLint.Syntax.Grammar.Subscript
import ScriptLint.Syntax.Grammar.Type
import ScriptLint.Syntax.Keyword
import ScriptLint.Syntax.Lexer
import ScriptLint.Syntax.Punct
import ScriptLint.Syntax.Token
import ScriptLint.Syntax.Tree
import ScriptLint.Text.CharClass
import ScriptLint.Text.Line
import ScriptLint.Text.NameTable
import ScriptLint.Text.Position
import ScriptLint.Text.Shown
import ScriptLint.Text.WidthTable
import ScriptLint.Text.Word
import ScriptLint.Toml.Document
import ScriptLint.Toml.Fault
import ScriptLint.Toml.Number
import ScriptLint.Toml.Printer
import ScriptLint.Toml.Reader
import ScriptLint.Toml.Text
import ScriptLint.Toml.Value
import ScriptLint.Walk
import ScriptLint.Proofs.Node
import ScriptLint.Proofs.Redeclaration
import ScriptLint.Proofs.ScopeModel
import ScriptLint.Proofs.Resolution
import ScriptLint.Proofs.UnusedImport
import ScriptLint.Proofs.ImportBinding
import ScriptLint.Proofs.Walk
import ScriptLint.Proofs.Verdict
import ScriptLint.Proofs.ReportRanking
import ScriptLint.Proofs.Isolation
import ScriptLint.Proofs.Position
import ScriptLint.Proofs.ByteOrderMark
import ScriptLint.Proofs.RelativePath
import ScriptLint.Proofs.ExportCover
import ScriptLint.Proofs.Scan
import ScriptLint.Proofs.DeclarationLog
import ScriptLint.Proofs.LexicalScope
import ScriptLint.Proofs.SeverityOverrides
import ScriptLint.Proofs.ShortestDecimal
import ScriptLint.Proofs.JsonText
import ScriptLint.Proofs.JsonReport
import ScriptLint.Proofs.TextReport
import ScriptLint.Proofs.MemberNames
import ScriptLint.Proofs.FreeReads
import ScriptLint.Proofs.UnreachableCode
import ScriptLint.Proofs.SuspiciousAsync
import ScriptLint.Proofs.NormalPath
import ScriptLint.Proofs.SoleNames
import ScriptLint.Proofs.Snippet
import ScriptLint.Proofs.ImportOrder
import ScriptLint.Proofs.UnknownImport
import ScriptLint.Proofs.ExportLayout
import ScriptLint.Proofs.Mentions
import ScriptLint.Proofs.PathSteps
import ScriptLint.Proofs.Exclusion
import ScriptLint.Proofs.ConfigSearch
import ScriptLint.Proofs.TableKeys
import ScriptLint.Proofs.ConfigWarnings
import ScriptLint.Proofs.MarkCount
import ScriptLint.Proofs.ScopeLinks
import ScriptLint.Proofs.Binders
