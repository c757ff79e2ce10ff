import OneStep.Binary.Arithmetic
import OneStep.Binary.Basic
import OneStep.Binary.Decimal
import OneStep.Calendar
import OneStep.CommandLine.Grammar
import OneStep.CommandLine.Request
import OneStep.CommandLine.Run
import OneStep.Datum.Basic
import OneStep.Datum.Order
import OneStep.Datum.Text
import OneStep.Encoding
import OneStep.Encoding.Operand
import OneStep.Error
import OneStep.Expr
import OneStep.Fault
import OneStep.Files
import OneStep.Journal
import OneStep.Json.Reader
import OneStep.Json.Writer
import OneStep.Kind
import OneStep.Loading
import OneStep.Main
import OneStep.Memo
import OneStep.Proofs.Allocation
import OneStep.Proofs.Assignments
import OneStep.Proofs.Calculus
import OneStep.Proofs.Casts
import OneStep.Proofs.Commands
import OneStep.Proofs.Conformance
import OneStep.Proofs.Constants
import OneStep.Proofs.Decoding
import OneStep.Proofs.Documents
import OneStep.Proofs.DoubleRounding
import OneStep.Proofs.Draws
import OneStep.Proofs.Encoded
import OneStep.Proofs.Endings
import OneStep.Proofs.Evaluation
import OneStep.Proofs.Faults
import OneStep.Proofs.Freshness
import OneStep.Proofs.Inference
import OneStep.Proofs.Integers
import OneStep.Proofs.Isolation
import OneStep.Proofs.Layouts
import OneStep.Proofs.Lexing
import OneStep.Proofs.Lines
import OneStep.Proofs.Literals
import OneStep.Proofs.Locality
import OneStep.Proofs.Lookups
import OneStep.Proofs.Memos
import OneStep.Proofs.Models
import OneStep.Proofs.Names
import OneStep.Proofs.Narrowing
import OneStep.Proofs.Nesting
import OneStep.Proofs.Notations
import OneStep.Proofs.Outcome
import OneStep.Proofs.Printed
import OneStep.Proofs.Progress
import OneStep.Proofs.Reading
import OneStep.Proofs.Recursion
import OneStep.Proofs.Renaming
import OneStep.Proofs.Rendering
import OneStep.Proofs.Replay
import OneStep.Proofs.Reports
import OneStep.Proofs.Rounding
import OneStep.Proofs.Sessions
import OneStep.Proofs.Shape
import OneStep.Proofs.SharedLookups
import OneStep.Proofs.Stability
import OneStep.Proofs.Steps
import OneStep.Proofs.Stops
import OneStep.Proofs.Termination
import OneStep.Proofs.Tokens
import OneStep.Proofs.Typing
import OneStep.Proofs.Unknowns
import OneStep.Proofs.Validity
import OneStep.Proofs.Verdicts
import OneStep.Proofs.Words
import OneStep.Prover
import OneStep.Settings
import OneStep.Solver.BuiltIn
import OneStep.Solver.Option
import OneStep.Solver.Order
import OneStep.Solver.Reply
import OneStep.Solver.SExpr
import OneStep.Solver.Script
import OneStep.Solver.Search
import OneStep.Solver.Session
import OneStep.Spec.Decode
import OneStep.Spec.Registry
import OneStep.StreamType
import OneStep.Symbolic.Constant
import OneStep.Symbolic.Fresh
import OneStep.Symbolic.Operator
import OneStep.Symbolic.Value
import OneStep.Term
import OneStep.Term.Circuit
import OneStep.Term.Eval
import OneStep.Term.Sharing
import OneStep.Text.Basic
import OneStep.Text.Case
import OneStep.Text.Numeral
import OneStep.Text.Quoted
import OneStep.Value
import OneStep.Verdict
import OneStep.Yaml.Building
import OneStep.Yaml.Cursor
import OneStep.Yaml.Layout
import OneStep.Yaml.Node
import OneStep.Yaml.Scalar
import OneStep.Yaml.Tag
import OneStep.Yaml.Token
