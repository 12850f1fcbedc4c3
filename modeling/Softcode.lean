import Softcode.Analysis
import Softcode.Batch
import Softcode.Catalogue.Basic
import Softcode.Catalogue.Builtin
import Softcode.Catalogue.Record
import Softcode.CommandLine.Arguments
import Softcode.CommandLine.Run
import Softcode.Context
import Softcode.Decimal.Reader
import Softcode.Decimal.Shortest
import Softcode.Deprecation
import Softcode.Files.Path
import Softcode.Files.Tree
import Softcode.Finding
import Softcode.Finding.Record
import Softcode.Json.Basic
import Softcode.Json.Reader
import Softcode.Json.Token
import Softcode.Json.Writer
import Softcode.Line.Bracket
import Softcode.Line.Call
import Softcode.Line.Glyph
import Softcode.Line.Profile
import Softcode.Line.Substitution
import Softcode.Load
import Softcode.Main
import Softcode.Pattern.Basic
import Softcode.Pattern.CharSet
import Softcode.Pattern.Class
import Softcode.Pattern.Reader
import Softcode.Pattern.Search
import Softcode.Practice.Advice
import Softcode.Practice.Hygiene
import Softcode.Practice.Maintainability
import Softcode.Practice.Marker
import Softcode.Practice.Performance
import Softcode.Practice.Readability
import Softcode.Practice.Review
import Softcode.Practice.Style
import Softcode.Proofs.AlikeLines
import Softcode.Proofs.AlikeScripts
import Softcode.Proofs.BatchReport
import Softcode.Proofs.BracketAccounting
import Softcode.Proofs.BracketPairs
import Softcode.Proofs.CatalogueRestore
import Softcode.Proofs.CheckCodes
import Softcode.Proofs.Columns
import Softcode.Proofs.DeprecatedCalls
import Softcode.Proofs.Documentation
import Softcode.Proofs.ExactScore
import Softcode.Proofs.FirstOccurrence
import Softcode.Proofs.FloatOrder
import Softcode.Proofs.FloatRounding
import Softcode.Proofs.Growth
import Softcode.Proofs.JsonGrammar
import Softcode.Proofs.JsonReading
import Softcode.Proofs.JsonTokens
import Softcode.Proofs.LetterCase
import Softcode.Proofs.LineEdits
import Softcode.Proofs.LineIndex
import Softcode.Proofs.LineInsertion
import Softcode.Proofs.LineTerminators
import Softcode.Proofs.LiteralContents
import Softcode.Proofs.MissingCloser
import Softcode.Proofs.Nesting
import Softcode.Proofs.Overlay
import Softcode.Proofs.Positions
import Softcode.Proofs.RequestDecoding
import Softcode.Proofs.RuleSelection
import Softcode.Proofs.Sanitizing
import Softcode.Proofs.SarifLog
import Softcode.Proofs.TextLines
import Softcode.Proofs.Validity
import Softcode.Record.Json
import Softcode.Record.Source
import Softcode.Record.Yaml
import Softcode.Report.Basic
import Softcode.Report.Format
import Softcode.Report.Ink
import Softcode.Report.Sarif
import Softcode.Report.Text
import Softcode.Request.Basic
import Softcode.Request.Reader
import Softcode.Score
import Softcode.Security.Rule
import Softcode.Security.Scan
import Softcode.Settings
import Softcode.Settings.Record
import Softcode.Syntax.Defect
import Softcode.Syntax.LineCheck
import Softcode.Syntax.ScriptCheck
import Softcode.Text.Ascii
import Softcode.Text.Blank
import Softcode.Text.CaseOrbit
import Softcode.Text.DecimalDigit
import Softcode.Text.Decode
import Softcode.Text.Digits
import Softcode.Text.Lines
import Softcode.Text.Printable
import Softcode.Text.Ranges
import Softcode.Text.Word
import Softcode.Yaml.Cursor
import Softcode.Yaml.Node
import Softcode.Yaml.Scalar
import Softcode.Yaml.Token
import Softcode.Yaml.Word
import Softcode.Yaml.Writer
import Softcode.Proofs.QuoteParity
import Softcode.Proofs.SubstitutionGrammar
import Softcode.Proofs.MatchLocations
import Softcode.Proofs.NestingDepth
import Softcode.Proofs.Indentation
import Softcode.Proofs.DialectLookup
import Softcode.Proofs.MatchColumns
import Softcode.Proofs.RefusedField
import Softcode.Proofs.CallSites
import Softcode.Proofs.MagicNumbers
import Softcode.Proofs.PatternLanguage
import Softcode.Proofs.Secrets
