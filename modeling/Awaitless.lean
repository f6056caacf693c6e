import Awaitless.Bundle.Basic
import Awaitless.Bundle.Blocking
import Awaitless.Bundle.Propagation
import Awaitless.Bundle.Record
import Awaitless.Bundle.Registry
import Awaitless.Bundle.Report
import Awaitless.CommandLine.Arguments
import Awaitless.CommandLine.Run
import Awaitless.CommandLine.Summary
import Awaitless.Decimal.Binary64
import Awaitless.Decimal.Fixed
import Awaitless.Decimal.Minimal
import Awaitless.Decimal.Rounding
import Awaitless.Decimal.Shortest
import Awaitless.Distinct
import Awaitless.FileTree.Access
import Awaitless.FileTree.Basic
import Awaitless.Hash.Xxh3
import Awaitless.Main
import Awaitless.Naming
import Awaitless.Path
import Awaitless.Problem
import Awaitless.Proofs.Blocking
import Awaitless.Proofs.Build
import Awaitless.Proofs.Bundle.Growth
import Awaitless.Proofs.Bundle.Lookup
import Awaitless.Proofs.Bundle.Operations
import Awaitless.Proofs.Bundle.Propagation
import Awaitless.Proofs.Bundle.Registry
import Awaitless.Proofs.CommandLine.Arguments
import Awaitless.Proofs.CommandLine.InPlace
import Awaitless.Proofs.CommandLine.Reading
import Awaitless.Proofs.Deferral
import Awaitless.Proofs.DynamicImports
import Awaitless.Proofs.Edges
import Awaitless.Proofs.Failure
import Awaitless.Proofs.FileTree.Access
import Awaitless.Proofs.FileTree.Contents
import Awaitless.Proofs.ImportCalls
import Awaitless.Proofs.Layout
import Awaitless.Proofs.Link
import Awaitless.Proofs.Locality
import Awaitless.Proofs.Order
import Awaitless.Proofs.Outcome
import Awaitless.Proofs.Promises
import Awaitless.Proofs.Repetition
import Awaitless.Proofs.Requests
import Awaitless.Proofs.Resolution
import Awaitless.Proofs.Scan
import Awaitless.Proofs.Script.Calls
import Awaitless.Proofs.Script.Checking.Basic
import Awaitless.Proofs.Script.Checking.Exports
import Awaitless.Proofs.Script.Checking.Forms
import Awaitless.Proofs.Script.Checking.Imports
import Awaitless.Proofs.Script.Containment
import Awaitless.Proofs.Script.Evaluation
import Awaitless.Proofs.Script.Items
import Awaitless.Proofs.Script.Names
import Awaitless.Proofs.Script.Parsing.Basic
import Awaitless.Proofs.Script.Parsing.Exports
import Awaitless.Proofs.Script.Parsing.Module
import Awaitless.Proofs.Script.Parsing.Pattern
import Awaitless.Proofs.Script.Parsing.Statement
import Awaitless.Proofs.Script.Parsing.Targets
import Awaitless.Proofs.Script.Plain
import Awaitless.Proofs.Script.Rewriting
import Awaitless.Proofs.Script.Searching
import Awaitless.Proofs.Script.Severity
import Awaitless.Proofs.Script.Targets
import Awaitless.Proofs.Segments
import Awaitless.Proofs.Shadowing
import Awaitless.Proofs.Transform.Assembly
import Awaitless.Proofs.Transform.Assignments
import Awaitless.Proofs.Transform.ClosureScope
import Awaitless.Proofs.Transform.Contents
import Awaitless.Proofs.Transform.Continuations
import Awaitless.Proofs.Transform.Exports
import Awaitless.Proofs.Transform.ImportClauses
import Awaitless.Proofs.Transform.ModuleScope
import Awaitless.Proofs.Transform.Pieces
import Awaitless.Proofs.Transform.Surroundings
import Awaitless.Proofs.Transform.Threading
import Awaitless.Proofs.Transform.Unsupported
import Awaitless.Proofs.Validity
import Awaitless.Proofs.Waiting
import Awaitless.Script.Comment
import Awaitless.Script.Diagnostic
import Awaitless.Script.EarlyErrors
import Awaitless.Script.EarlyErrors.Class
import Awaitless.Script.EarlyErrors.Findings
import Awaitless.Script.EarlyErrors.Function
import Awaitless.Script.EarlyErrors.ModuleItem
import Awaitless.Script.EarlyErrors.Setting
import Awaitless.Script.Kind
import Awaitless.Script.Lexer.Cursor
import Awaitless.Script.Lexer.Escape
import Awaitless.Script.Lexer.Number
import Awaitless.Script.Lexer.Scan
import Awaitless.Script.Make
import Awaitless.Script.Node
import Awaitless.Script.NodeLaws
import Awaitless.Script.Operator
import Awaitless.Script.Parse
import Awaitless.Script.Parser.Class
import Awaitless.Script.Parser.Expression
import Awaitless.Script.Parser.Function
import Awaitless.Script.Parser.Goal
import Awaitless.Script.Parser.Identifier
import Awaitless.Script.Parser.Markup
import Awaitless.Script.Parser.Modifier
import Awaitless.Script.Parser.Module
import Awaitless.Script.Parser.Pattern
import Awaitless.Script.Parser.State
import Awaitless.Script.Parser.Statement
import Awaitless.Script.Parser.Types
import Awaitless.Script.Pattern
import Awaitless.Script.Print
import Awaitless.Script.Printer.Expression
import Awaitless.Script.Printer.Function
import Awaitless.Script.Printer.Literal
import Awaitless.Script.Printer.Rules
import Awaitless.Script.Printer.State
import Awaitless.Script.Printer.Statement
import Awaitless.Script.Scope
import Awaitless.Script.Token
import Awaitless.Script.Waiting
import Awaitless.Settings
import Awaitless.Source
import Awaitless.Text.CodeRanges
import Awaitless.Text.Identifier
import Awaitless.Text.IdentifierRanges
import Awaitless.Text.Lines
import Awaitless.Text.PrintableRanges
import Awaitless.Text.Quoted
import Awaitless.Text.Raw
import Awaitless.Text.Units
import Awaitless.Transform
import Awaitless.Transform.Body
import Awaitless.Transform.DynamicImports
import Awaitless.Transform.Items
import Awaitless.Transform.Module
import Awaitless.Transform.PromiseImports
