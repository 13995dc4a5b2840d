import BenchSweep.Text.Alphanumeric
import BenchSweep.Text.Blank
import BenchSweep.Text.Bytes
import BenchSweep.Text.DecimalDigit
import BenchSweep.Text.Paint
import BenchSweep.Text.Quoted
import BenchSweep.Decimal.Binary
import BenchSweep.Decimal.Fixed
import BenchSweep.Decimal.Numeral
import BenchSweep.Decimal.Precision
import BenchSweep.Decimal.Shortest
import BenchSweep.Keyed
import BenchSweep.Toml.Document
import BenchSweep.Toml.Scalar
import BenchSweep.Toml.Strings
import BenchSweep.Toml.Tree
import BenchSweep.Toml.Value
import BenchSweep.Toml.Writer
import BenchSweep.Shell.Expand
import BenchSweep.Shell.Words
import BenchSweep.Log.Format
import BenchSweep.Log.Pattern
import BenchSweep.Catalog.Basic
import BenchSweep.Catalog.Decode
import BenchSweep.Catalog.Encode
import BenchSweep.Catalog.Error
import BenchSweep.Catalog.File
import BenchSweep.Catalog.Settings
import BenchSweep.Experiment.Descriptor
import BenchSweep.Experiment.Expansion
import BenchSweep.Experiment.Template
import BenchSweep.Stats.Aggregate
import BenchSweep.Stats.Value
import BenchSweep.Stats.Welford
import BenchSweep.Locale.Basic
import BenchSweep.Locale.Phrase
import BenchSweep.Locale.Voice
import BenchSweep.Disk.Access
import BenchSweep.Disk.Basic
import BenchSweep.Disk.Path
import BenchSweep.Run.Artifact
import BenchSweep.Run.Progress
import BenchSweep.Run.Record
import BenchSweep.Run.Scan
import BenchSweep.Run.Sweep
import BenchSweep.Run.Trial
import BenchSweep.Run.World
import BenchSweep.Report.Analysis
import BenchSweep.Report.Console
import BenchSweep.Report.Dump
import BenchSweep.Report.Html
import BenchSweep.Report.JsonText
import BenchSweep.Report.Latex
import BenchSweep.Report.Markup
import BenchSweep.Report.StyleSheet
import BenchSweep.Report.Timestamp
import BenchSweep.Command.Failure
import BenchSweep.Command.Init
import BenchSweep.Command.Report
import BenchSweep.Command.Run
import BenchSweep.Command.Session
import BenchSweep.Tool.Arithmetic
import BenchSweep.Tool.Files
import BenchSweep.Tool.Host
import BenchSweep.Tool.Process
import BenchSweep.Tool.Programs
import BenchSweep.Tool.Script
import BenchSweep.Tool.Shell
import BenchSweep.Tool.Utility
import BenchSweep.Tool.Word
import BenchSweep.Cli.Arguments
import BenchSweep.Cli.Grammar
import BenchSweep.Cli.Help
import BenchSweep.Cli.Program
import BenchSweep.Main
import BenchSweep.Proofs.Keyed
import BenchSweep.Proofs.Decimal.Written
import BenchSweep.Proofs.Decimal.Held
import BenchSweep.Proofs.Decimal.Plain
import BenchSweep.Proofs.Log.Places
import BenchSweep.Proofs.Log.Grammar
import BenchSweep.Proofs.Log.Separators
import BenchSweep.Proofs.Disk.Places
import BenchSweep.Proofs.Run.Names
import BenchSweep.Proofs.Experiment.Accepted
import BenchSweep.Proofs.Experiment.Exactness
import BenchSweep.Proofs.Run.Containment
import BenchSweep.Proofs.Disk.Directory
import BenchSweep.Proofs.Run.Maintains
import BenchSweep.Proofs.Run.Conduct
import BenchSweep.Proofs.Run.Steps
import BenchSweep.Proofs.Run.Course
import BenchSweep.Proofs.Run.Status
import BenchSweep.Proofs.Run.Settled
import BenchSweep.Proofs.Run.Exclusion
import BenchSweep.Proofs.Run.Dense
import BenchSweep.Proofs.Run.Finality
import BenchSweep.Proofs.Run.Account
import BenchSweep.Proofs.Run.Extent
import BenchSweep.Proofs.Run.Files
import BenchSweep.Proofs.Run.Exits
import BenchSweep.Proofs.Run.Agreement
import BenchSweep.Proofs.Run.Attempt
import BenchSweep.Proofs.Run.Frontier
import BenchSweep.Proofs.Run.Resumption
import BenchSweep.Proofs.Run.Retention
import BenchSweep.Proofs.Stats.Grouping
import BenchSweep.Proofs.Report.Tables
import BenchSweep.Proofs.Report.Totals
import BenchSweep.Proofs.Report.Coverage
import BenchSweep.Proofs.Report.Shuffle
import BenchSweep.Proofs.Stats.Moments
import BenchSweep.Proofs.Report.Layout
import BenchSweep.Proofs.Report.Tabular
import BenchSweep.Proofs.Report.Reader
import BenchSweep.Proofs.Report.Page
import BenchSweep.Proofs.Report.TableFiles
import BenchSweep.Proofs.Run.Order
import BenchSweep.Proofs.Run.Workload
import BenchSweep.Proofs.Run.Filling
import BenchSweep.Proofs.Run.Timeouts
import BenchSweep.Proofs.Run.Budgets
import BenchSweep.Proofs.Experiment.Substitution
import BenchSweep.Proofs.Experiment.Columns
import BenchSweep.Proofs.Shell.Quoting
import BenchSweep.Proofs.Toml.Strings
import BenchSweep.Proofs.Toml.Documents
import BenchSweep.Proofs.Catalog.Starter
import BenchSweep.Proofs.Report.Footprint
import BenchSweep.Proofs.Report.Fields
import BenchSweep.Proofs.Report.Placeholders
