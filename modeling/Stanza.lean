import Stanza.Attributes
import Stanza.Block.Compile
import Stanza.Block.Definition
import Stanza.Block.Walk
import Stanza.Calendar
import Stanza.Cli.Arguments
import Stanza.Cli.Console
import Stanza.Cli.Markup
import Stanza.Cli.Request
import Stanza.Cli.Run
import Stanza.Cli.Screen
import Stanza.Cli.Standard
import Stanza.Cli.Table
import Stanza.Convert
import Stanza.Expression
import Stanza.Fault
import Stanza.Files.Name
import Stanza.Files.Tree
import Stanza.Format
import Stanza.Json.Document
import Stanza.Json.Token
import Stanza.Layout.Assignment
import Stanza.Layout.Line
import Stanza.Main
import Stanza.Number.Decimal
import Stanza.Number.Double
import Stanza.Number.Numeral
import Stanza.Number.Script
import Stanza.Proofs.Block.Context
import Stanza.Proofs.Block.Forest
import Stanza.Proofs.Block.Heading
import Stanza.Proofs.Block.Indented
import Stanza.Proofs.Block.Opening
import Stanza.Proofs.Block.Presented
import Stanza.Proofs.Cli.Agreement
import Stanza.Proofs.Cli.Apart
import Stanza.Proofs.Cli.Commands
import Stanza.Proofs.Cli.Configured
import Stanza.Proofs.Cli.History
import Stanza.Proofs.Cli.Home
import Stanza.Proofs.Cli.Laws
import Stanza.Proofs.Cli.Opening
import Stanza.Proofs.Cli.Shown
import Stanza.Proofs.Cli.Standard
import Stanza.Proofs.Conversion
import Stanza.Proofs.Encoding
import Stanza.Proofs.Expression.Balance
import Stanza.Proofs.Expression.Grammar
import Stanza.Proofs.Expression.Quoting
import Stanza.Proofs.Expression.Scan
import Stanza.Proofs.Expression.Unfinished
import Stanza.Proofs.Fault.Alike
import Stanza.Proofs.Fault.Building
import Stanza.Proofs.Fault.Filtered
import Stanza.Proofs.Fault.First
import Stanza.Proofs.Fault.Leads
import Stanza.Proofs.Fault.Path
import Stanza.Proofs.Fault.Reported
import Stanza.Proofs.Files.Blocked
import Stanza.Proofs.Files.Following
import Stanza.Proofs.Files.Growth
import Stanza.Proofs.Files.Twin
import Stanza.Proofs.Json.Refusal
import Stanza.Proofs.Layout.Early
import Stanza.Proofs.Layout.Heading
import Stanza.Proofs.Layout.Leaves
import Stanza.Proofs.Layout.Lexeme
import Stanza.Proofs.Layout.Opening
import Stanza.Proofs.Layout.Outline
import Stanza.Proofs.Layout.Runs
import Stanza.Proofs.Layout.Shape
import Stanza.Proofs.Layout.Unspaced
import Stanza.Proofs.Loading
import Stanza.Proofs.Number.Exact
import Stanza.Proofs.Number.Interval
import Stanza.Proofs.Number.Reading
import Stanza.Proofs.Number.Written
import Stanza.Proofs.Quoted
import Stanza.Proofs.Reader.Document
import Stanza.Proofs.Reader.Frame
import Stanza.Proofs.Reader.Meaning
import Stanza.Proofs.Reader.Token
import Stanza.Proofs.Steps
import Stanza.Proofs.Template.Canonical
import Stanza.Proofs.Template.Cuts
import Stanza.Proofs.Template.Reading
import Stanza.Proofs.Template.Sum
import Stanza.Proofs.Traversal
import Stanza.Proofs.Yaml.Reading
import Stanza.Proofs.Yaml.Refusal
import Stanza.Proofs.Yaml.Scanning
import Stanza.Settings
import Stanza.Source
import Stanza.Template
import Stanza.Text.Blank
import Stanza.Text.Cells
import Stanza.Text.Encoding
import Stanza.Text.Literal
import Stanza.Text.Lower
import Stanza.Text.Mark
import Stanza.Text.Printable
import Stanza.Text.Quoted
import Stanza.Value.Basic
import Stanza.Value.Fields
import Stanza.Value.Key
import Stanza.Value.Literal
import Stanza.Value.Node
import Stanza.Value.Render
import Stanza.Yaml.Build
import Stanza.Yaml.Cursor
import Stanza.Yaml.Document
import Stanza.Yaml.Error
import Stanza.Yaml.Name
import Stanza.Yaml.Node
import Stanza.Yaml.Number
import Stanza.Yaml.Scalar
import Stanza.Yaml.Tag
import Stanza.Yaml.Token
