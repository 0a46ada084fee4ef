import EngineBridge.Bridge.Basic
import EngineBridge.Bridge.Channel
import EngineBridge.Bridge.Host
import EngineBridge.Bridge.Session
import EngineBridge.Bridge.Worker
import EngineBridge.CommandLine.Options
import EngineBridge.CommandLine.Run
import EngineBridge.Decimal.Binary
import EngineBridge.Decimal.Shortest
import EngineBridge.Engine.Adapter
import EngineBridge.Engine.Any
import EngineBridge.Engine.Interpreter
import EngineBridge.Engine.Output
import EngineBridge.Engine.Registry
import EngineBridge.Engine.Script
import EngineBridge.Engine.Scripted
import EngineBridge.Error
import EngineBridge.Event.Bus
import EngineBridge.Fault
import EngineBridge.Json.Failure
import EngineBridge.Json.Printer
import EngineBridge.Json.Reader
import EngineBridge.Json.Shape
import EngineBridge.Json.Value
import EngineBridge.Lifecycle
import EngineBridge.Main
import EngineBridge.Process.Child
import EngineBridge.Process.Configured
import EngineBridge.Process.Interpreter
import EngineBridge.Process.Programs
import EngineBridge.Process.Sync
import EngineBridge.Programs.Shell.Arithmetic
import EngineBridge.Programs.Shell.Builtin.Basic
import EngineBridge.Programs.Shell.Builtin.Control
import EngineBridge.Programs.Shell.Builtin.Input
import EngineBridge.Programs.Shell.Builtin.Signals
import EngineBridge.Programs.Shell.Builtin.Surroundings
import EngineBridge.Programs.Shell.Builtin.Table
import EngineBridge.Programs.Shell.Builtin.Variables
import EngineBridge.Programs.Shell.Condition
import EngineBridge.Programs.Shell.Execution
import EngineBridge.Programs.Shell.Expansion
import EngineBridge.Programs.Shell.Fields
import EngineBridge.Programs.Shell.Format
import EngineBridge.Programs.Shell.Grammar
import EngineBridge.Programs.Shell.Number
import EngineBridge.Programs.Shell.Pattern
import EngineBridge.Programs.Shell.Reader
import EngineBridge.Programs.Shell.Real
import EngineBridge.Programs.Shell.Redirecting
import EngineBridge.Programs.Shell.Run
import EngineBridge.Programs.Shell.Script
import EngineBridge.Programs.Shell.State
import EngineBridge.Programs.Shell.Syntax
import EngineBridge.Programs.Shell.Tool.Basic
import EngineBridge.Programs.Shell.Tool.Calculating
import EngineBridge.Programs.Shell.Tool.Copying
import EngineBridge.Programs.Shell.Tool.Counting
import EngineBridge.Programs.Shell.Tool.Cutting
import EngineBridge.Programs.Shell.Tool.Editing
import EngineBridge.Programs.Shell.Tool.Exchanging
import EngineBridge.Programs.Shell.Tool.Managing
import EngineBridge.Programs.Shell.Tool.Regex
import EngineBridge.Programs.Shell.Tool.Searching
import EngineBridge.Programs.Shell.Tool.Table
import EngineBridge.Programs.Shell.Word
import EngineBridge.Programs.Tree
import EngineBridge.Proofs.Bilingual
import EngineBridge.Proofs.Closing
import EngineBridge.Proofs.Codec
import EngineBridge.Proofs.Conduct
import EngineBridge.Proofs.Configuring
import EngineBridge.Proofs.Custody
import EngineBridge.Proofs.Deadlines
import EngineBridge.Proofs.Delimiting
import EngineBridge.Proofs.Dialogue
import EngineBridge.Proofs.Echoing
import EngineBridge.Proofs.Ending
import EngineBridge.Proofs.Failing
import EngineBridge.Proofs.Fields
import EngineBridge.Proofs.Forwarding
import EngineBridge.Proofs.Journal
import EngineBridge.Proofs.Ledger
import EngineBridge.Proofs.Listening
import EngineBridge.Proofs.Meaning
import EngineBridge.Proofs.Milestones
import EngineBridge.Proofs.Network
import EngineBridge.Proofs.Order
import EngineBridge.Proofs.Pacing
import EngineBridge.Proofs.Panics
import EngineBridge.Proofs.Parting
import EngineBridge.Proofs.Precedence
import EngineBridge.Proofs.Printing
import EngineBridge.Proofs.Reading
import EngineBridge.Proofs.Recovering
import EngineBridge.Proofs.Registering
import EngineBridge.Proofs.Relaying
import EngineBridge.Proofs.Replay
import EngineBridge.Proofs.Reporting
import EngineBridge.Proofs.Scheduling
import EngineBridge.Proofs.Serving
import EngineBridge.Proofs.Sifting
import EngineBridge.Proofs.Statements
import EngineBridge.Proofs.Subscribing
import EngineBridge.Proofs.Tables
import EngineBridge.Proofs.Timing
import EngineBridge.Proofs.Truncating
import EngineBridge.Proofs.Turns
import EngineBridge.Serve.Framing
import EngineBridge.Serve.Network
import EngineBridge.Serve.Sink
import EngineBridge.Serve.Source
import EngineBridge.Settings.Basic
import EngineBridge.Settings.Decode
import EngineBridge.Settings.File
import EngineBridge.Settings.Shape
import EngineBridge.Text.Blank
import EngineBridge.Text.Bytes
import EngineBridge.Text.Digit
import EngineBridge.Text.Extending
import EngineBridge.Text.Lines
import EngineBridge.Text.Quoted
import EngineBridge.Text.Unprintable
import EngineBridge.Toml.Document
import EngineBridge.Toml.Moment
import EngineBridge.Toml.Reader
import EngineBridge.Toml.Scalar
import EngineBridge.Toml.Value
import EngineBridge.Wire.Decode
import EngineBridge.Wire.Encode
import EngineBridge.Wire.Message
