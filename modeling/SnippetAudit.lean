import SnippetAudit.Main
import SnippetAudit.Proofs.Pattern.Takes
import SnippetAudit.Proofs.Span.Scan
import SnippetAudit.Proofs.Span.Header
import SnippetAudit.Proofs.Span.Braces
import SnippetAudit.Proofs.Span.Indentation
import SnippetAudit.Proofs.Json.Number
import SnippetAudit.Proofs.Json.Quoted
import SnippetAudit.Proofs.Json.Reader
import SnippetAudit.Proofs.Json.Text
import SnippetAudit.Proofs.Decimal.Layout
import SnippetAudit.Proofs.Json.Value
import SnippetAudit.Proofs.Report.Record
import SnippetAudit.Proofs.Json.Visible
import SnippetAudit.Proofs.Archive.Line
import SnippetAudit.Proofs.Store.Disk
import SnippetAudit.Proofs.Store.Folders
import SnippetAudit.Proofs.Command.Attempt
import SnippetAudit.Proofs.Archive.File
import SnippetAudit.Proofs.Archive.Contents
import SnippetAudit.Proofs.Archive.Writings
import SnippetAudit.Proofs.Json.Cut
import SnippetAudit.Proofs.Json.Severed
import SnippetAudit.Proofs.Archive.Scraps
import SnippetAudit.Proofs.Text.Encoding
import SnippetAudit.Proofs.Archive.Tail
import SnippetAudit.Proofs.Archive.Trials
import SnippetAudit.Proofs.Display.Json
import SnippetAudit.Proofs.Analysis.Aloud
import SnippetAudit.Proofs.Analysis.Trace
import SnippetAudit.Proofs.Analysis.Listening
import SnippetAudit.Proofs.Command.Output
import SnippetAudit.Proofs.Archive.Gain
import SnippetAudit.Proofs.Command.Analyze
import SnippetAudit.Proofs.Store.Files
import SnippetAudit.Proofs.Command.Snippet
import SnippetAudit.Proofs.Pattern.Walk
import SnippetAudit.Proofs.Pattern.Tail
import SnippetAudit.Proofs.Issue.Rules
import SnippetAudit.Proofs.Issue.Lines
import SnippetAudit.Proofs.Analysis.Loosening
import SnippetAudit.Proofs.Line
import SnippetAudit.Proofs.Issue.AddedCall
import SnippetAudit.Proofs.Analysis.AddedCall
import SnippetAudit.Proofs.Archive.Corruption
import SnippetAudit.Proofs.Span.Calls
import SnippetAudit.Proofs.Decision
import SnippetAudit.Proofs.Settings.Sound
import SnippetAudit.Proofs.Command.Configure
import SnippetAudit.Proofs.Store.Location
import SnippetAudit.Proofs.Command.Discovery
import SnippetAudit.Proofs.Issue.EvalCalls
import SnippetAudit.Proofs.Span.Names
import SnippetAudit.Proofs.Pattern.Call
import SnippetAudit.Proofs.Detector.Loops
import SnippetAudit.Proofs.Detector.Iteration
import SnippetAudit.Proofs.Fixture
import SnippetAudit.Proofs.Detector.Allocation
import SnippetAudit.Proofs.Text.LineEnding
import SnippetAudit.Proofs.Pattern.LineEnding
import SnippetAudit.Proofs.Issue.LineEnding
import SnippetAudit.Proofs.Span.Seek
import SnippetAudit.Proofs.Span.TypeWord
import SnippetAudit.Proofs.Span.Stretches
import SnippetAudit.Proofs.Detector.Branches
import SnippetAudit.Proofs.Detector.Groups
import SnippetAudit.Proofs.Issue.DebugOutput
import SnippetAudit.Proofs.Span.Dedent
import SnippetAudit.Proofs.Display.Terminal
import SnippetAudit.Proofs.Display.Markdown
import SnippetAudit.Proofs.Command.Batch
import SnippetAudit.Proofs.Path.Ancestors
