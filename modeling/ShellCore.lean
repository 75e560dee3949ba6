import ShellCore.Binary64.Basic
import ShellCore.Binary64.Layout
import ShellCore.Binary64.Shortest
import ShellCore.Control
import ShellCore.Error
import ShellCore.Evaluation.Answer
import ShellCore.Evaluation.Arithmetic
import ShellCore.Evaluation.Command
import ShellCore.Evaluation.Control
import ShellCore.Evaluation.Expression
import ShellCore.Evaluation.Function
import ShellCore.Evaluation.Guard
import ShellCore.Evaluation.Machine
import ShellCore.Evaluation.Prompt
import ShellCore.Evaluation.Request
import ShellCore.Evaluation.Substitution
import ShellCore.Evaluation.Test
import ShellCore.Evaluation.Trace
import ShellCore.Evaluation.Word
import ShellCore.Host.Basic
import ShellCore.Host.Builtin
import ShellCore.Host.Memory
import ShellCore.Json.Basic
import ShellCore.Json.Numeral
import ShellCore.Json.Printer
import ShellCore.Json.Reader
import ShellCore.Lexing.Lexeme
import ShellCore.Lexing.Line
import ShellCore.Proofs.Arithmetic.Exactness
import ShellCore.Proofs.Arithmetic.Operand
import ShellCore.Proofs.Control.Argument
import ShellCore.Proofs.Control.Escape
import ShellCore.Proofs.Control.Nest
import ShellCore.Proofs.Control.Raise
import ShellCore.Proofs.Control.Round
import ShellCore.Proofs.Control.Site
import ShellCore.Proofs.Control.Unwinding
import ShellCore.Proofs.Evaluation.Congruence
import ShellCore.Proofs.Evaluation.Discipline
import ShellCore.Proofs.Evaluation.Execution
import ShellCore.Proofs.Evaluation.Faults
import ShellCore.Proofs.Evaluation.Fuel
import ShellCore.Proofs.Evaluation.Keeping
import ShellCore.Proofs.Evaluation.Loopless
import ShellCore.Proofs.Evaluation.Regrouping
import ShellCore.Proofs.Evaluation.Returning
import ShellCore.Proofs.Evaluation.Sessions
import ShellCore.Proofs.Evaluation.Task
import ShellCore.Proofs.Evaluation.Template
import ShellCore.Proofs.Evaluation.Termination
import ShellCore.Proofs.Guard.Log
import ShellCore.Proofs.Guard.Logging
import ShellCore.Proofs.Guard.Release
import ShellCore.Proofs.Guard.Trail
import ShellCore.Proofs.Guard.Tree
import ShellCore.Proofs.Host.Balance
import ShellCore.Proofs.Host.Capturing
import ShellCore.Proofs.Host.Collection
import ShellCore.Proofs.Host.Comparison
import ShellCore.Proofs.Host.Destination
import ShellCore.Proofs.Host.Discipline
import ShellCore.Proofs.Host.Frameless
import ShellCore.Proofs.Host.Framing
import ShellCore.Proofs.Host.Nesting
import ShellCore.Proofs.Host.Output
import ShellCore.Proofs.Host.Recording
import ShellCore.Proofs.Host.Redirection
import ShellCore.Proofs.Host.Refusal
import ShellCore.Proofs.Host.Trail
import ShellCore.Proofs.Host.Undoing
import ShellCore.Proofs.Host.Wiring
import ShellCore.Proofs.Json.Fields
import ShellCore.Proofs.Json.Records
import ShellCore.Proofs.Json.Values
import ShellCore.Proofs.Lexing.Beginnings
import ShellCore.Proofs.Lexing.Classification
import ShellCore.Proofs.Lexing.Columns
import ShellCore.Proofs.Lexing.Coverage
import ShellCore.Proofs.Lexing.OpenString
import ShellCore.Proofs.Lexing.PhysicalLines
import ShellCore.Proofs.Lexing.QuoteAgreement
import ShellCore.Proofs.Lexing.QuoteLexemes
import ShellCore.Proofs.Lexing.QuoteScan
import ShellCore.Proofs.Lexing.Runs
import ShellCore.Proofs.Lexing.Segments
import ShellCore.Proofs.Lexing.StringPlaces
import ShellCore.Proofs.Lexing.Tiling
import ShellCore.Proofs.Scope.Bindings
import ShellCore.Proofs.Scope.CallFree
import ShellCore.Proofs.Scope.Confinement
import ShellCore.Proofs.Scope.Effects
import ShellCore.Proofs.Scope.Frames
import ShellCore.Proofs.Scope.Isolation
import ShellCore.Proofs.Scope.Resolution
import ShellCore.Proofs.Scope.Shielding
import ShellCore.Proofs.Scope.Stack
import ShellCore.Proofs.Scope.Values
import ShellCore.Proofs.Shell.Composition
import ShellCore.Proofs.Shell.Interleaving
import ShellCore.Proofs.Shell.Location
import ShellCore.Proofs.Shell.Numbering
import ShellCore.Proofs.Shell.Soundness
import ShellCore.Proofs.Shell.Sourcing
import ShellCore.Proofs.Shell.Statement
import ShellCore.Proofs.Source.Agreement
import ShellCore.Proofs.Source.Handles
import ShellCore.Proofs.Source.LexedLines
import ShellCore.Proofs.Source.LineRecord
import ShellCore.Proofs.Source.Operation
import ShellCore.Proofs.Source.Reachable
import ShellCore.Proofs.Source.Reconstruction
import ShellCore.Proofs.Source.RefusedColumn
import ShellCore.Proofs.Source.Representation
import ShellCore.Proofs.Source.Reversal
import ShellCore.Proofs.Source.Room
import ShellCore.Proofs.Source.Saving
import ShellCore.Proofs.Source.Verbatim
import ShellCore.Proofs.Source.Window
import ShellCore.Proofs.Source.WindowSearch
import ShellCore.Proofs.Spans.Brackets
import ShellCore.Proofs.Spans.Indifference
import ShellCore.Proofs.Spans.Likeness
import ShellCore.Proofs.Spans.Requests
import ShellCore.Proofs.Spans.Steps
import ShellCore.Proofs.Text.Encoding
import ShellCore.Proofs.Text.Numeral
import ShellCore.Proofs.Tracing.Erasure
import ShellCore.Proofs.Tracing.Evaluation
import ShellCore.Proofs.Tracing.Observation
import ShellCore.Proofs.Tracing.Rereading
import ShellCore.Proofs.Tracing.Silence
import ShellCore.Proofs.Tracing.Splitting
import ShellCore.Proofs.Wiring.Assembly
import ShellCore.Proofs.Wiring.History
import ShellCore.Proofs.Wiring.Once
import ShellCore.Proofs.Wiring.Persistence
import ShellCore.Proofs.Wiring.Record
import ShellCore.Proofs.Wiring.Validation
import ShellCore.Scope
import ShellCore.Shell.Basic
import ShellCore.Shell.Config
import ShellCore.Shell.Description
import ShellCore.Source.Arena
import ShellCore.Source.Basic
import ShellCore.Source.Extract
import ShellCore.Source.Record
import ShellCore.Status
import ShellCore.Syntax
import ShellCore.Table
import ShellCore.Text.Blank
import ShellCore.Text.Bytes
import ShellCore.Text.Numeral
import ShellCore.Text.Utf8
import ShellCore.Value
import ShellCore.Wiring.Assembly
import ShellCore.Wiring.Connection
import ShellCore.Wiring.Link
import ShellCore.Wiring.Registry
