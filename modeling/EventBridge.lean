import EventBridge.Cli.Arguments
import EventBridge.Cli.Run
import EventBridge.Config.Basic
import EventBridge.Config.Printer
import EventBridge.Config.Reader
import EventBridge.Config.Store
import EventBridge.Decimal.Form
import EventBridge.Decimal.Real64
import EventBridge.Decimal.Shortest
import EventBridge.Dispatch.Dispatcher
import EventBridge.Dispatch.Occurrence
import EventBridge.Dispatch.Shared
import EventBridge.Document.Mismatch
import EventBridge.Engine.Basic
import EventBridge.Engine.Context
import EventBridge.Engine.Live
import EventBridge.Files.Path
import EventBridge.Files.Tree
import EventBridge.Handle.Table
import EventBridge.Http.Headers
import EventBridge.Interpreter.Basic
import EventBridge.Interpreter.Module
import EventBridge.Interpreter.Natives
import EventBridge.Interpreter.Stack
import EventBridge.Json.Basic
import EventBridge.Json.Printer
import EventBridge.Json.Reader
import EventBridge.Keyed
import EventBridge.Log.Filter
import EventBridge.Log.Line
import EventBridge.Main
import EventBridge.Net.Address
import EventBridge.Net.Address.Reader
import EventBridge.Replay.Apply
import EventBridge.Replay.Basic
import EventBridge.Replay.Run
import EventBridge.Script.Access
import EventBridge.Script.Eval
import EventBridge.Script.Fault
import EventBridge.Script.Library
import EventBridge.Script.Machine
import EventBridge.Script.Numeral
import EventBridge.Script.Position
import EventBridge.Script.Reader
import EventBridge.Script.Syntax
import EventBridge.Script.Value
import EventBridge.Text.Base64
import EventBridge.Text.Blank
import EventBridge.Text.Digits
import EventBridge.Text.Printable
import EventBridge.Text.Quoted
import EventBridge.Text.Utf8
import EventBridge.Toml.Basic
import EventBridge.Toml.Build
import EventBridge.Toml.Reader
import EventBridge.Toml.Report
import EventBridge.Toml.Scalar
import EventBridge.Toml.Text
import EventBridge.Toml.Writer
import EventBridge.Trace.Event
import EventBridge.Trace.Event.Fields
import EventBridge.Trace.Event.Printer
import EventBridge.Trace.Event.Reader
import EventBridge.Proofs.Handle.Ideal
import EventBridge.Proofs.Handle.Laws
import EventBridge.Proofs.Handle.Simulation
import EventBridge.Proofs.Handle.Growth
import EventBridge.Proofs.Result
import EventBridge.Proofs.Files.Tree
import EventBridge.Proofs.Text.Digits
import EventBridge.Proofs.Text.Base64
import EventBridge.Proofs.Net.Address
import EventBridge.Proofs.Json.Reader
import EventBridge.Proofs.Json.Inversion
import EventBridge.Proofs.Toml.Strings
import EventBridge.Proofs.Toml.Document
import EventBridge.Proofs.Toml.Regular
import EventBridge.Proofs.Toml.Datum
import EventBridge.Proofs.Config.Store
import EventBridge.Proofs.Config.Resave
import EventBridge.Proofs.Config.Form
import EventBridge.Proofs.Config.Meaning
import EventBridge.Proofs.Trace.Members
import EventBridge.Proofs.Trace.RoundTrip
import EventBridge.Proofs.Trace.Meaning
import EventBridge.Proofs.Trace.Line
import EventBridge.Proofs.Engine.Chain
import EventBridge.Proofs.Engine.Makers
import EventBridge.Proofs.Script.Asking
import EventBridge.Proofs.Script.Store
import EventBridge.Proofs.Script.Metatable
import EventBridge.Proofs.Script.Globals
import EventBridge.Proofs.Discipline.Basic
import EventBridge.Proofs.Discipline.Rules
import EventBridge.Proofs.Discipline.Library
import EventBridge.Proofs.Discipline.Evaluator
import EventBridge.Proofs.Discipline.Host
import EventBridge.Proofs.Discipline.Dispatcher
import EventBridge.Proofs.Script.Walk
import EventBridge.Proofs.Script.Among
import EventBridge.Proofs.Script.Confined
import EventBridge.Proofs.Script.Refusals
import EventBridge.Proofs.Script.Leaving
import EventBridge.Proofs.Interpreter.Positions
import EventBridge.Proofs.Interpreter.StackMachine
import EventBridge.Proofs.Interpreter.Words
import EventBridge.Proofs.Interpreter.Failures
import EventBridge.Proofs.Interpreter.Confined
import EventBridge.Proofs.Interpreter.Namespace
import EventBridge.Proofs.Interpreter.ReadOnly
import EventBridge.Proofs.Dispatch.Exec
import EventBridge.Proofs.Dispatch.Lifetime
import EventBridge.Proofs.Dispatch.Balance
import EventBridge.Proofs.Dispatch.Growth
import EventBridge.Proofs.Dispatch.Policy
import EventBridge.Proofs.Dispatch.Inquiry
import EventBridge.Proofs.Dispatch.Arguments
import EventBridge.Proofs.Dispatch.Resolution
import EventBridge.Proofs.Dispatch.Reports
import EventBridge.Proofs.Dispatch.Loading
import EventBridge.Proofs.Dispatch.Misuse
import EventBridge.Proofs.Renumbering.Basic
import EventBridge.Proofs.Renumbering.Script
import EventBridge.Proofs.Renumbering.Evaluator
import EventBridge.Proofs.Renumbering.Host
import EventBridge.Proofs.Renumbering.Dispatcher
import EventBridge.Proofs.Dispatch.Reload
import EventBridge.Proofs.Replay.Skip
import EventBridge.Proofs.Replay.Course
import EventBridge.Proofs.Replay.Stages
import EventBridge.Proofs.Replay.Independence
import EventBridge.Proofs.Replay.FirstFailure
import EventBridge.Proofs.Replay.Lifecycle
import EventBridge.Proofs.Replay.Incarnation
import EventBridge.Proofs.Replay.Numbering
import EventBridge.Proofs.Replay.Attribution
import EventBridge.Proofs.Replay.Reload
import EventBridge.Proofs.Replay.Pieces
import EventBridge.Proofs.Replay.Accounting
import EventBridge.Proofs.Replay.Reports
import EventBridge.Proofs.Replay.Completion
import EventBridge.Proofs.Replay.Payload
