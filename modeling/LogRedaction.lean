import LogRedaction.Audit
import LogRedaction.CommandLine.Command
import LogRedaction.CommandLine.Execution
import LogRedaction.CommandLine.Grammar
import LogRedaction.CommandLine.Reading
import LogRedaction.Configuration
import LogRedaction.Copying
import LogRedaction.Decimal.Reading
import LogRedaction.Decimal.Shortest
import LogRedaction.Disk.Basic
import LogRedaction.Disk.Path
import LogRedaction.Identity
import LogRedaction.Line
import LogRedaction.Listing
import LogRedaction.Log
import LogRedaction.Main
import LogRedaction.Placement
import LogRedaction.Proofs.Text.Utf8
import LogRedaction.Regex.CharTest
import LogRedaction.Regex.Cursor
import LogRedaction.Regex.Escape
import LogRedaction.Regex.Fault
import LogRedaction.Regex.Match
import LogRedaction.Regex.Reading.Escape
import LogRedaction.Regex.Reading.Expression
import LogRedaction.Regex.Reading.Flag
import LogRedaction.Regex.Reading.Set
import LogRedaction.Regex.Search
import LogRedaction.Regex.Source
import LogRedaction.Regex.Syntax
import LogRedaction.Report
import LogRedaction.Rule
import LogRedaction.Template
import LogRedaction.Text.Blank
import LogRedaction.Text.Hexadecimal
import LogRedaction.Text.Integer
import LogRedaction.Text.Json
import LogRedaction.Text.Lines
import LogRedaction.Text.Quoted
import LogRedaction.Text.Utf8
import LogRedaction.Unicode.Case
import LogRedaction.Unicode.Identifier
import LogRedaction.Unicode.Letter
import LogRedaction.Unicode.Name
import LogRedaction.Unicode.Number
import LogRedaction.Unicode.Printable
import LogRedaction.Unicode.RangeTable
import LogRedaction.Value
import LogRedaction.Value.Printer
import LogRedaction.Workspace
import LogRedaction.Yaml.Binary
import LogRedaction.Yaml.Content
import LogRedaction.Yaml.Document
import LogRedaction.Yaml.Fault
import LogRedaction.Yaml.Node
import LogRedaction.Yaml.Scalar
import LogRedaction.Yaml.Timestamp
import LogRedaction.Yaml.Token
import LogRedaction.Yaml.Tokens
import LogRedaction.Proofs.Line
import LogRedaction.Proofs.Text.Lines
import LogRedaction.Proofs.Disk.Operations
import LogRedaction.Proofs.Report
import LogRedaction.Proofs.Workspace
import LogRedaction.Proofs.Copying
import LogRedaction.Proofs.Placement
import LogRedaction.Proofs.Progress
import LogRedaction.Proofs.Session
import LogRedaction.Proofs.Redaction
import LogRedaction.Proofs.CommandLine.Execution
import LogRedaction.Proofs.Text.Occurrence
import LogRedaction.Proofs.Regex.Plain
import LogRedaction.Proofs.Username
import LogRedaction.Proofs.Template
import LogRedaction.Proofs.WordRule
import LogRedaction.Proofs.Anonymity
import LogRedaction.Proofs.LineNumbers
import LogRedaction.Proofs.Finding
import LogRedaction.Proofs.Rerun
import LogRedaction.Proofs.Addition
import LogRedaction.Proofs.Text.Undecodable
import LogRedaction.Proofs.PartialCopy
import LogRedaction.Proofs.Regex.Answer
import LogRedaction.Proofs.Regex.Cut
import LogRedaction.Proofs.Disk.Path
import LogRedaction.Proofs.Interruption
import LogRedaction.Proofs.CommandLine.Interruption
import LogRedaction.Proofs.Disk.Growth
import LogRedaction.Proofs.Growth
import LogRedaction.Proofs.CommandLine.Preservation
import LogRedaction.Proofs.Independence
import LogRedaction.Proofs.Listing
import LogRedaction.Proofs.CommandLine.Preflight
import LogRedaction.Proofs.CommandLine.Containment
import LogRedaction.Proofs.Disk.Beside
import LogRedaction.Proofs.Parallel
import LogRedaction.Proofs.Durability
import LogRedaction.Proofs.CommandLine.ReportFile
import LogRedaction.Proofs.Failure
import LogRedaction.Proofs.Turn
import LogRedaction.Proofs.Regex.Span
import LogRedaction.Proofs.Pseudonym
import LogRedaction.Proofs.RuleOrder
import LogRedaction.Proofs.Regex.Escaped
import LogRedaction.Proofs.Template.Token
import LogRedaction.Proofs.Template.Expression
import LogRedaction.Proofs.Template.Segment
import LogRedaction.Proofs.Placeholders
import LogRedaction.Proofs.EscapedPlaceholder
import LogRedaction.Proofs.Configuration
import LogRedaction.Proofs.Trail.Reading
import LogRedaction.Proofs.Trail
import LogRedaction.Proofs.PartialPlacement
import LogRedaction.Proofs.Collision
