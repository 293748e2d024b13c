import MethodLines.Ansi
import MethodLines.Ansi.Plain
import MethodLines.Batch
import MethodLines.Command.Failure
import MethodLines.Command.Reporting
import MethodLines.Command.SettingsFile
import MethodLines.CommandLine
import MethodLines.FileTree
import MethodLines.Host
import MethodLines.Json
import MethodLines.Json.Approximation
import MethodLines.Json.Decoding
import MethodLines.Json.Draft
import MethodLines.Json.Reading
import MethodLines.Json.StringReading
import MethodLines.Log
import MethodLines.Main
import MethodLines.Options
import MethodLines.Path
import MethodLines.Program
import MethodLines.Proofs.Batch.Comments
import MethodLines.Proofs.Batch.Joining
import MethodLines.Proofs.Batch.LineEnds
import MethodLines.Proofs.Batch.Logging
import MethodLines.Proofs.Batch.Reprinting
import MethodLines.Proofs.Batch.Tasks
import MethodLines.Proofs.Batch.Transcript
import MethodLines.Proofs.Command.Collecting
import MethodLines.Proofs.Command.Given
import MethodLines.Proofs.Command.Inheriting
import MethodLines.Proofs.Command.Reporting
import MethodLines.Proofs.Command.Sessions
import MethodLines.Proofs.Command.SettingUp
import MethodLines.Proofs.Command.SettingsFile
import MethodLines.Proofs.CommandLine.Accepted
import MethodLines.Proofs.CommandLine.Spelling
import MethodLines.Proofs.CommandLine.Writing
import MethodLines.Proofs.FileTree.Following
import MethodLines.Proofs.FileTree.Naming
import MethodLines.Proofs.FileTree.Writing
import MethodLines.Proofs.Host
import MethodLines.Proofs.Json.Grammar
import MethodLines.Proofs.Json.Members
import MethodLines.Proofs.Json.Numbers
import MethodLines.Proofs.Json.RoundTrip
import MethodLines.Proofs.Json.Strings
import MethodLines.Proofs.Outcome
import MethodLines.Proofs.Path
import MethodLines.Proofs.Path.Ancestors
import MethodLines.Proofs.Report.Cells
import MethodLines.Proofs.Report.Delivery
import MethodLines.Proofs.Report.Document
import MethodLines.Proofs.Report.Markdown
import MethodLines.Proofs.Report.Terminal
import MethodLines.Proofs.Settings.Partial
import MethodLines.Proofs.Signature.Arguments
import MethodLines.Proofs.Signature.Checking
import MethodLines.Proofs.Signature.Closing
import MethodLines.Proofs.Signature.Defects
import MethodLines.Proofs.Signature.Encoding
import MethodLines.Proofs.Signature.Messages
import MethodLines.Proofs.Signature.Parentheses
import MethodLines.Proofs.Signature.Reading
import MethodLines.Proofs.Signature.RoundTrip
import MethodLines.Proofs.Signature.Spellings
import MethodLines.Proofs.Styling
import MethodLines.Proofs.Text.LineEnds
import MethodLines.Proofs.Text.Lines
import MethodLines.Proofs.Text.Pieces
import MethodLines.Proofs.Text.Trimming
import MethodLines.Proofs.Toml.Dates
import MethodLines.Proofs.Toml.Digits
import MethodLines.Proofs.Toml.Documents
import MethodLines.Proofs.Toml.Keys
import MethodLines.Proofs.Toml.Numbers
import MethodLines.Proofs.Toml.Scalars
import MethodLines.Proofs.Toml.Strings
import MethodLines.Proofs.Toml.Values
import MethodLines.Report
import MethodLines.Report.Document
import MethodLines.Report.Markdown
import MethodLines.Report.Terminal
import MethodLines.Report.Writing
import MethodLines.Settings
import MethodLines.Settings.Document
import MethodLines.Signature
import MethodLines.Signature.Encoding
import MethodLines.Signature.Reading
import MethodLines.Signature.Rejection
import MethodLines.Signature.Traced
import MethodLines.Sink
import MethodLines.Text
import MethodLines.Text.Blank
import MethodLines.Text.Pieces
import MethodLines.Text.Quoted
import MethodLines.Text.Unprintable
import MethodLines.Toml.Quoted
import MethodLines.Toml.Reading
import MethodLines.Toml.Scalar
import MethodLines.Toml.Table
