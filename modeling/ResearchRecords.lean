import ResearchRecords.Client.Basic
import ResearchRecords.Client.Fault
import ResearchRecords.Client.Pager
import ResearchRecords.Client.Transport
import ResearchRecords.Command.Basic
import ResearchRecords.Command.Run
import ResearchRecords.CommandLine.Flag
import ResearchRecords.CommandLine.Invocation
import ResearchRecords.CommandLine.Reading
import ResearchRecords.Config
import ResearchRecords.Decimal.Shortest
import ResearchRecords.Document.Decode
import ResearchRecords.Document.Encode
import ResearchRecords.Document.Fault
import ResearchRecords.Document.Merge
import ResearchRecords.Document.Outstanding
import ResearchRecords.Document.Receipt
import ResearchRecords.Document.Resource
import ResearchRecords.Document.Scan
import ResearchRecords.Environment
import ResearchRecords.Filter
import ResearchRecords.Json.Fault
import ResearchRecords.Json.Layout
import ResearchRecords.Json.Lexer
import ResearchRecords.Json.Members
import ResearchRecords.Json.Node
import ResearchRecords.Json.Number
import ResearchRecords.Json.Token
import ResearchRecords.Json.Value
import ResearchRecords.Json.Writer
import ResearchRecords.Logging.Directive
import ResearchRecords.Logging.Journal
import ResearchRecords.Logging.Level
import ResearchRecords.Logging.Settings
import ResearchRecords.Program
import ResearchRecords.Record.Attribute
import ResearchRecords.Record.Basic
import ResearchRecords.Record.Kind
import ResearchRecords.Record.Relationship
import ResearchRecords.Record.Vocabulary
import ResearchRecords.Selector
import ResearchRecords.Text.Base64
import ResearchRecords.Text.Blank
import ResearchRecords.Text.Decimal
import ResearchRecords.Text.Percent
import ResearchRecords.Text.Printable
import ResearchRecords.Text.Quoted
import ResearchRecords.Text.Utf8
import ResearchRecords.Timestamp.Basic
import ResearchRecords.Timestamp.Text
import ResearchRecords.Url.Basic
import ResearchRecords.Url.Fault
import ResearchRecords.Url.Host
import ResearchRecords.Url.Parser
import ResearchRecords.Url.Punycode
import ResearchRecords.Url.Spelling
import ResearchRecords.Main
import ResearchRecords.Proofs.Json.Members
import ResearchRecords.Proofs.Json.WrittenText
import ResearchRecords.Proofs.Json.Written
import ResearchRecords.Proofs.Json.Canonical
import ResearchRecords.Proofs.Json.Tree
import ResearchRecords.Proofs.Json.Layout
import ResearchRecords.Proofs.Document.Scanning
import ResearchRecords.Proofs.Document.Scannable
import ResearchRecords.Proofs.Document.Content
import ResearchRecords.Proofs.Document.Agreement
import ResearchRecords.Proofs.Document.Hydration
import ResearchRecords.Proofs.Document.Stubs
import ResearchRecords.Proofs.Document.Settlement
import ResearchRecords.Proofs.Document.Reading
import ResearchRecords.Proofs.Client.Reading
import ResearchRecords.Proofs.Record.Attributes
import ResearchRecords.Proofs.Document.Written
import ResearchRecords.Proofs.Document.WriteRead
import ResearchRecords.Proofs.Document.Receipt
import ResearchRecords.Proofs.Client.Repository
import ResearchRecords.Proofs.Client.Replacement
import ResearchRecords.Proofs.Client.Preservation
import ResearchRecords.Proofs.Client.Addressing
import ResearchRecords.Proofs.Client.Walk
import ResearchRecords.Proofs.Document.Pages
import ResearchRecords.Proofs.Document.Totals
import ResearchRecords.Proofs.Client.Coverage
import ResearchRecords.Proofs.Document.Nesting
import ResearchRecords.Proofs.Client.Nesting
import ResearchRecords.Proofs.Filter.Quotation
import ResearchRecords.Proofs.Filter.Readable
import ResearchRecords.Proofs.Document.Elementwise
import ResearchRecords.Proofs.Document.Concordance
import ResearchRecords.Proofs.Client.Discipline
import ResearchRecords.Proofs.Client.Queries
import ResearchRecords.Proofs.Document.Reachable
import ResearchRecords.Proofs.Client.Merging
import ResearchRecords.Proofs.Command.Selecting
import ResearchRecords.Proofs.Document.Filling
import ResearchRecords.Proofs.Document.Stopping
import ResearchRecords.Proofs.Document.Extending
import ResearchRecords.Proofs.Client.Extending
import ResearchRecords.Proofs.Client.Updating
import ResearchRecords.Proofs.Document.Acceptance
import ResearchRecords.Proofs.Client.Creating
import ResearchRecords.Proofs.Document.Depth
import ResearchRecords.Proofs.Json.Reordering
import ResearchRecords.Proofs.Json.Stable
import ResearchRecords.Proofs.Document.Rearranged
import ResearchRecords.Proofs.Document.Invariance
import ResearchRecords.Proofs.Client.Invariance
import ResearchRecords.Proofs.CommandLine.Flags
import ResearchRecords.Proofs.CommandLine.Settings
import ResearchRecords.Proofs.Url.Paths
import ResearchRecords.Proofs.Url.Resolving
import ResearchRecords.Proofs.Client.Bases
import ResearchRecords.Proofs.Text.Base64
import ResearchRecords.Proofs.Client.Settings
import ResearchRecords.Proofs.Filter.Closing
import ResearchRecords.Proofs.Record.Accessors
