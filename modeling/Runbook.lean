import Runbook.Assoc
import Runbook.Checked.Basic
import Runbook.Checked.Reader
import Runbook.Checked.Report
import Runbook.Checked.Wording
import Runbook.Command.Answer
import Runbook.Command.Arguments
import Runbook.Command.Assignment
import Runbook.Command.Basic
import Runbook.Command.Demo
import Runbook.Command.Line
import Runbook.Condition.Verdict
import Runbook.Definition.Execution
import Runbook.Definition.Request
import Runbook.Definition.Step
import Runbook.Definition.Variable
import Runbook.Definition.Workflow
import Runbook.Failure
import Runbook.Files.Disk
import Runbook.Files.Path
import Runbook.Files.Tree
import Runbook.Journal.Percent
import Runbook.Journal.Record
import Runbook.Journal.Setup
import Runbook.Json.Basic
import Runbook.Json.Diagnosis
import Runbook.Json.Layout
import Runbook.Json.Printer
import Runbook.Json.Reader
import Runbook.Main
import Runbook.Number.Binary
import Runbook.Number.Scientific
import Runbook.Number.Shortest
import Runbook.Pattern.Fold
import Runbook.Pattern.Matcher
import Runbook.Pattern.Reader
import Runbook.Pattern.Syntax
import Runbook.Proofs.Assoc
import Runbook.Proofs.Checked
import Runbook.Proofs.Checked.Faithful
import Runbook.Proofs.Command.ExitCodes
import Runbook.Proofs.Command.PrintedRun
import Runbook.Proofs.Command.Printing
import Runbook.Proofs.Command.Uses
import Runbook.Proofs.Condition.Judgement
import Runbook.Proofs.Definition.Execution
import Runbook.Proofs.Definition.Kind
import Runbook.Proofs.Definition.Request
import Runbook.Proofs.Definition.Step
import Runbook.Proofs.Definition.Variable
import Runbook.Proofs.Definition.Workflow
import Runbook.Proofs.Files.Disk
import Runbook.Proofs.Files.Folder
import Runbook.Proofs.Files.Frame
import Runbook.Proofs.Files.Handover
import Runbook.Proofs.Files.Names
import Runbook.Proofs.Happens
import Runbook.Proofs.Json.Characters
import Runbook.Proofs.Json.Nesting
import Runbook.Proofs.Json.RoundTrip
import Runbook.Proofs.Json.Scalars
import Runbook.Proofs.Json.Sound
import Runbook.Proofs.Run.Ancestry
import Runbook.Proofs.Run.BrokenOff
import Runbook.Proofs.Run.Cancellation
import Runbook.Proofs.Run.Checks
import Runbook.Proofs.Run.Closing
import Runbook.Proofs.Run.Course
import Runbook.Proofs.Run.EarlyCancellation
import Runbook.Proofs.Run.Ending
import Runbook.Proofs.Run.Execution
import Runbook.Proofs.Run.Flat
import Runbook.Proofs.Run.Likeness
import Runbook.Proofs.Run.Live
import Runbook.Proofs.Run.NestedRun
import Runbook.Proofs.Run.Nesting
import Runbook.Proofs.Run.NextPosition
import Runbook.Proofs.Run.Observers
import Runbook.Proofs.Run.Plain
import Runbook.Proofs.Run.PlainExecution
import Runbook.Proofs.Run.Preflight
import Runbook.Proofs.Run.Scopes
import Runbook.Proofs.Run.Shared
import Runbook.Proofs.Run.Termination
import Runbook.Proofs.Run.Transcript
import Runbook.Proofs.Run.Uncancelled
import Runbook.Proofs.Run.Watch
import Runbook.Proofs.Service.Accounts
import Runbook.Proofs.Service.History
import Runbook.Proofs.Service.Requests
import Runbook.Proofs.Service.Serving
import Runbook.Proofs.Shell.Honesty
import Runbook.Proofs.Store.Confinement
import Runbook.Proofs.Store.Durability
import Runbook.Proofs.Store.Listing
import Runbook.Proofs.Store.Opening
import Runbook.Proofs.Store.Saving
import Runbook.Proofs.Store.Times
import Runbook.Proofs.Store.Validity
import Runbook.Proofs.Store.VariableFile
import Runbook.Proofs.Store.Variables
import Runbook.Proofs.Store.WorkflowChanges
import Runbook.Proofs.Store.WorkflowFiles
import Runbook.Proofs.Store.WorkflowFolder
import Runbook.Proofs.Store.WorkflowSteps
import Runbook.Proofs.Store.Workflows
import Runbook.Proofs.Template.Places
import Runbook.Proofs.Template.Segments
import Runbook.Proofs.Text.AnyBytes
import Runbook.Proofs.Text.Utf8
import Runbook.Proofs.Timestamp.Calendar
import Runbook.Proofs.Timestamp.RoundTrip
import Runbook.Run.Course
import Runbook.Run.Dialogue
import Runbook.Run.Record
import Runbook.Run.Start
import Runbook.Run.Steps
import Runbook.Run.Stores
import Runbook.Run.Stream
import Runbook.Run.World
import Runbook.Service.Address
import Runbook.Service.Answer
import Runbook.Service.Basic
import Runbook.Service.Message
import Runbook.Service.Origin
import Runbook.Service.Route
import Runbook.Settings.Basic
import Runbook.Settings.Dotenv
import Runbook.Shell.Arithmetic
import Runbook.Shell.Builtins
import Runbook.Shell.Capture
import Runbook.Shell.Evaluation
import Runbook.Shell.Fields
import Runbook.Shell.Format
import Runbook.Shell.Glob
import Runbook.Shell.Judgement
import Runbook.Shell.Launch
import Runbook.Shell.Machine
import Runbook.Shell.Rehearsal
import Runbook.Shell.Script.Basic
import Runbook.Shell.Script.Reader
import Runbook.Shell.Tools
import Runbook.Shell.Watch
import Runbook.Store.Fault
import Runbook.Store.Variables
import Runbook.Store.Workflows
import Runbook.Template
import Runbook.Text.AnyBytes
import Runbook.Text.Blank
import Runbook.Text.Case
import Runbook.Text.CaseTable
import Runbook.Text.Half
import Runbook.Text.Lines
import Runbook.Text.Printable
import Runbook.Text.Quoted
import Runbook.Text.Ranges
import Runbook.Text.Utf8
import Runbook.Text.Word
import Runbook.Timestamp.Basic
import Runbook.Timestamp.Printer
import Runbook.Timestamp.Reader
import Runbook.Timestamp.Seconds
import Runbook.Proofs.Number.Rounding
import Runbook.Proofs.Number.Shortest
import Runbook.Proofs.Journal.Line
import Runbook.Proofs.Journal.Setup
import Runbook.Proofs.Run.Output
