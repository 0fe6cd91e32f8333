import LineReview.Cache.Packed
import LineReview.Cache.Store
import LineReview.Classifier.Brace
import LineReview.Classifier.Lexical
import LineReview.Classifier.Word
import LineReview.CommandLine.Arguments
import LineReview.CommandLine.Check
import LineReview.CommandLine.Command
import LineReview.CommandLine.Console
import LineReview.CommandLine.Flag
import LineReview.CommandLine.Page
import LineReview.CommandLine.Run
import LineReview.CommandLine.ScanFlags
import LineReview.CommandLine.Setup
import LineReview.CommandLine.Watch
import LineReview.Declaration
import LineReview.Diagnostic.Bag
import LineReview.Diagnostic.Basic
import LineReview.Diagnostic.Code
import LineReview.Diagnostic.Listing
import LineReview.Diagnostic.Severity
import LineReview.Digest
import LineReview.FileSystem.Access
import LineReview.FileSystem.Changes
import LineReview.FileSystem.Tree
import LineReview.JsonValue
import LineReview.Layout
import LineReview.Main
import LineReview.Naming.Rule
import LineReview.Naming.Shape
import LineReview.Number.Binary
import LineReview.Number.Integer
import LineReview.Path
import LineReview.PathRule.Basic
import LineReview.PathRule.File
import LineReview.PathRule.Glob
import LineReview.Progress.Event
import LineReview.Progress.View
import LineReview.ProjectFile
import LineReview.Report.Basic
import LineReview.Report.Human
import LineReview.Report.Machine
import LineReview.Review.Lines
import LineReview.Review.Options
import LineReview.Review.Outcome
import LineReview.Scan.Basic
import LineReview.Scan.Group
import LineReview.Scan.Result
import LineReview.Scan.Tree
import LineReview.Scan.Worker
import LineReview.Settings
import LineReview.Source.File
import LineReview.Source.FileSet
import LineReview.Source.Reading
import LineReview.Text.Basic
import LineReview.Text.Case
import LineReview.Text.Cells
import LineReview.Text.Cluster
import LineReview.Text.Cluster.Table
import LineReview.Text.CodeTable
import LineReview.Text.Normal
import LineReview.Text.Normal.Table
import LineReview.Text.Printable
import LineReview.Text.Quoted
import LineReview.Text.Record
import LineReview.Text.Space
import LineReview.Text.Utf8
import LineReview.Time.Duration
import LineReview.Time.Instant
import LineReview.Time.Reading
import LineReview.Timer
import LineReview.Toml.Document
import LineReview.Toml.Reader
import LineReview.Toml.Scalar
import LineReview.Trace.Event
import LineReview.Trace.Format
import LineReview.Trace.Span
import LineReview.Trace.Tracer
import LineReview.Version
import LineReview.Walk
import LineReview.Watch.Loop
import LineReview.Proofs.Cache.RoundTrip
import LineReview.Proofs.FileSystem.Names
import LineReview.Proofs.FileSystem.Trees
import LineReview.Proofs.Review.Fingerprint
import LineReview.Proofs.FileSystem.Walk
import LineReview.Proofs.Cache.Entries
import LineReview.Proofs.Review.Locality
import LineReview.Proofs.Review.Numbered
import LineReview.Proofs.Scan.Workers
import LineReview.Proofs.Scan.Transitions
import LineReview.Proofs.Scan.Runs
import LineReview.Proofs.Scan.Turns
import LineReview.Proofs.Scan.History
import LineReview.Proofs.Scan.Results
import LineReview.Proofs.Classifier.Sites
import LineReview.Proofs.Review.Positions
import LineReview.Proofs.Scan.Resumption
import LineReview.Proofs.Scan.Cancellation
import LineReview.Proofs.Source.LineEndings
import LineReview.Proofs.Source.Partition
import LineReview.Proofs.Text.Blanks
import LineReview.Proofs.Classifier.TrailingBlanks
import LineReview.Proofs.Review.TrailingBlanks
import LineReview.Proofs.Progress.Counters
import LineReview.Proofs.Scan.News
import LineReview.Proofs.Trace.Kept
import LineReview.Proofs.Trace.Levels
import LineReview.Proofs.Scan.Traces
import LineReview.Proofs.Cache.Folder
import LineReview.Proofs.FileSystem.Moves
import LineReview.Proofs.Cache.Refinement
import LineReview.Proofs.Trace.Storage
import LineReview.Proofs.Trace.Spans
import LineReview.Proofs.Toml.Assignments
import LineReview.Proofs.Toml.Sections
import LineReview.Proofs.Toml.Keys
import LineReview.Proofs.Toml.LastAssignment
import LineReview.Proofs.ProjectFile.Accepted
import LineReview.Proofs.ProjectFile.Effects
import LineReview.Proofs.CommandLine.Layers
import LineReview.Proofs.FileSystem.Relative
import LineReview.Proofs.FileSystem.Folders
import LineReview.Proofs.FileSystem.Spelling
import LineReview.Proofs.Walk.Files
import LineReview.Proofs.Scan.Sequential
import LineReview.Proofs.Report.Lines
import LineReview.Proofs.Walk.Roots
import LineReview.Proofs.Report.Documents
import LineReview.Proofs.Classifier.Runs
import LineReview.Proofs.Classifier.Candidates
import LineReview.Proofs.Classifier.Variables
import LineReview.Proofs.Text.Indentation
import LineReview.Proofs.Classifier.Arrangement
import LineReview.Proofs.Classifier.Indentation
import LineReview.Proofs.Classifier.Braces
import LineReview.Proofs.Classifier.Heads
import LineReview.Proofs.Classifier.Scopes
import LineReview.Proofs.Classifier.EnumNames
import LineReview.Proofs.Naming.ClosedForm
import LineReview.Proofs.Layout.TabStops
import LineReview.Proofs.Text.Trimming
import LineReview.Proofs.Diagnostic.Listing
import LineReview.Proofs.Diagnostic.Bags
import LineReview.Proofs.Source.History
import LineReview.Proofs.Walk.Order
import LineReview.Path.Climb
import LineReview.Proofs.Walk.Faithful
import LineReview.Proofs.ProjectFile.Nearest
import LineReview.Proofs.Report.Caret
import LineReview.Proofs.Watch.Debounce
